import CanConverter.Lib.Race
import CanConverter.Frames.Counts
import CanConverter.System.Step

/-!
# The counters of the senders, unsynchronised

`frame_counts.field++` is a load and a store, and two threads call the senders: the periodic thread
and, through `ccu_can_test_send_all`, the test button.  Here a call is three steps, `enqueue`,
`load` and `store`, and the steps of the two threads, the consumer of the queue and the purge come
in any order.  `k_msgq_put` is one step.

* `Senders.step`          one such step;
* `ops f`                 the loads and stores of the field `f` among the events of a run;
* `atomically`            the same run with every call made in one step, at its enqueue;
* `Counted.step`          a field is a counter of the race library;
* `Linear`                how the run is tied to the atomic one;
* `senders_linear`        the queue is that of the atomic senders, and what a field lost;
* `periodic_only_exact`   a field the test does not send is never wrong.
-/

namespace CCU
open Runs

/-- the threads that call senders -/
inductive Caller where
  | periodic | button
deriving DecidableEq

/-- where a caller is: about to make the first of `calls`, or in the call `c` after its enqueue, or
there with the count loaded -/
inductive CallPc where
  | ready (calls : List Call)
  | enqueued (c : Call) (calls : List Call)
  | loaded (c : Call) (v : UInt32) (calls : List Call)
deriving DecidableEq

structure Senders where
  canTx : CanTx := {}
  pc : Caller → CallPc := fun _ => .ready []

inductive SenderEv where
  | pass (calls : List Call)
  | press (d : MasterData)
  | enqueue (t : Caller) (c : Call)
  | load (t : Caller) (c : Call)
  | store (t : Caller) (c : Call)
  | remove
  | purge

/-- `PACK_AND_ENQUEUE`, the sender up to its increment -/
def Call.enqueue (cd : Candef) (c : Call) (tx : CanTx) : CanTx :=
  (c.frame cd).elim tx fun f => tx.putFrame f

theorem Call.exec_eq_enqueue (cd : Candef) (c : Call) (tx : CanTx) :
    c.exec cd tx = { c.enqueue cd tx with
      frameCounts := Function.update tx.frameCounts c.field (tx.frameCounts c.field + 1) } :=
  Call.exec_eq cd c tx

theorem Call.enqueue_frameCounts (cd : Candef) (c : Call) (tx : CanTx) :
    (c.enqueue cd tx).frameCounts = tx.frameCounts := by
  unfold Call.enqueue
  cases c.frame cd with
  | none => rfl
  | some f => exact CanTx.putFrame_frameCounts f tx

/-- the enqueue looks at the queue only -/
theorem Call.enqueue_congr (cd : Candef) (c : Call) {tx tx' : CanTx}
    (hq : tx.canTxMsgq = tx'.canTxMsgq) (hf : tx.queueFull = tx'.queueFull) :
    (c.enqueue cd tx).canTxMsgq = (c.enqueue cd tx').canTxMsgq ∧
      (c.enqueue cd tx).queueFull = (c.enqueue cd tx').queueFull := by
  unfold Call.enqueue
  cases c.frame cd with
  | none => exact ⟨hq, hf⟩
  | some f =>
    show (tx.putFrame f).canTxMsgq = (tx'.putFrame f).canTxMsgq ∧
      (tx.putFrame f).queueFull = (tx'.putFrame f).queueFull
    unfold CanTx.putFrame
    rw [hq, hf]
    split <;> exact ⟨rfl, rfl⟩

namespace Senders

def goto (s : Senders) (t : Caller) (pc : CallPc) : Senders :=
  { s with pc := Function.update s.pc t pc }

/-- a thread that has made all its calls is given new ones -/
def start (s : Senders) (t : Caller) (calls : List Call) : Option Senders :=
  match s.pc t with
  | .ready [] => some (s.goto t (.ready calls))
  | _ => none

variable (cd : Candef)

def step (s : Senders) : SenderEv → Option Senders
  | .pass calls => s.start .periodic calls
  | .press d => s.start .button (testSendAll d)
  | .enqueue t c =>
    match s.pc t with
    | .ready (c' :: l) =>
      if c' = c then some ({ s with canTx := c.enqueue cd s.canTx }.goto t (.enqueued c l))
      else none
    | _ => none
  | .load t c =>
    match s.pc t with
    | .enqueued c' l =>
      if c' = c then some (s.goto t (.loaded c (s.canTx.frameCounts c.field) l)) else none
    | _ => none
  | .store t c =>
    match s.pc t with
    | .loaded c' v l =>
      if c' = c then
        some ({ s with
          canTx := { s.canTx with
            frameCounts := Function.update s.canTx.frameCounts c.field (v + 1) } }.goto t
          (.ready l))
      else none
    | _ => none
  | .remove => s.canTx.canTxMsgq.get.map fun p =>
      { s with canTx := { s.canTx with canTxMsgq := p.2 } }
  | .purge => some { s with canTx := { s.canTx with canTxMsgq := Fifo.empty } }

/-- no thread is in a call, and none has one to make -/
def AtRest (s : Senders) : Prop := ∀ t, s.pc t = .ready []

@[simp] theorem pc_goto (s : Senders) (t : Caller) (pc : CallPc) : (s.goto t pc).pc t = pc := by
  unfold goto
  exact Function.update_self ..
theorem pc_goto_of_ne {t u : Caller} (h : u ≠ t) (s : Senders) (pc : CallPc) :
    (s.goto t pc).pc u = s.pc u := by
  unfold goto
  exact Function.update_of_ne h ..

/-! ## what a step can do -/

variable {cd} {s s' : Senders} {t : Caller} {c : Call}

theorem start_some {calls : List Call} (h : s.start t calls = some s') :
    s.pc t = .ready [] ∧ s' = s.goto t (.ready calls) := by
  unfold start at h
  split at h
  · rename_i hp
    exact ⟨hp, (Option.some.inj h).symm⟩
  · cases h

theorem step_enqueue (h : step cd s (.enqueue t c) = some s') :
    ∃ l, s.pc t = .ready (c :: l) ∧
      s' = { s with canTx := c.enqueue cd s.canTx }.goto t (.enqueued c l) := by
  simp only [step] at h
  split at h
  · rename_i c' l hp
    split at h
    · rename_i hc
      subst hc
      exact ⟨l, hp, (Option.some.inj h).symm⟩
    · cases h
  · cases h

theorem step_load (h : step cd s (.load t c) = some s') :
    ∃ l, s.pc t = .enqueued c l ∧
      s' = s.goto t (.loaded c (s.canTx.frameCounts c.field) l) := by
  simp only [step] at h
  split at h
  · rename_i c' l hp
    split at h
    · rename_i hc
      subst hc
      exact ⟨l, hp, (Option.some.inj h).symm⟩
    · cases h
  · cases h

theorem step_store (h : step cd s (.store t c) = some s') :
    ∃ v l, s.pc t = .loaded c v l ∧
      s' = { s with
        canTx := { s.canTx with
          frameCounts := Function.update s.canTx.frameCounts c.field (v + 1) } }.goto t
        (.ready l) := by
  simp only [step] at h
  split at h
  · rename_i c' v l hp
    split at h
    · rename_i hc
      subst hc
      exact ⟨v, l, hp, (Option.some.inj h).symm⟩
    · cases h
  · cases h

theorem step_remove (h : step cd s .remove = some s') :
    ∃ f q, s.canTx.canTxMsgq.get = some (f, q) ∧
      s' = { s with canTx := { s.canTx with canTxMsgq := q } } := by
  obtain ⟨⟨f, q⟩, hq, hs⟩ := Option.map_eq_some_iff.mp h
  exact ⟨f, q, hq, hs.symm⟩

theorem step_purge (h : step cd s .purge = some s') :
    s' = { s with canTx := { s.canTx with canTxMsgq := Fifo.empty } } :=
  (Option.some.inj h).symm

end Senders

/-! ## a field as a counter -/

theorem filterMap_snoc {α β : Type} (g : α → Option β) (l : List α) (a : α) :
    (l ++ [a]).filterMap g = l.filterMap g ++ (g a).toList := by
  rw [List.filterMap_append]
  cases h : g a <;> simp [h]

/-- the operation on the field `f` -/
def SenderEv.op? (f : Field) : SenderEv → Option (Race.Op Caller)
  | .load t c => if c.field = f then some (.load t) else none
  | .store t c => if c.field = f then some (.store t) else none
  | _ => none

theorem op_load (f : Field) (t : Caller) (c : Call) :
    (SenderEv.load t c).op? f = if c.field = f then some (.load t) else none := rfl
theorem op_store (f : Field) (t : Caller) (c : Call) :
    (SenderEv.store t c).op? f = if c.field = f then some (.store t) else none := rfl

/-- the loads and stores of the field `f` -/
def ops (f : Field) (evs : List SenderEv) : List (Race.Op Caller) := evs.filterMap (SenderEv.op? f)

@[simp] theorem ops_snoc (f : Field) (evs : List SenderEv) (e : SenderEv) :
    ops f (evs ++ [e]) = ops f evs ++ (e.op? f).toList := filterMap_snoc _ evs e

/-- what the caller has loaded of the field `f` -/
def CallPc.holds (f : Field) : CallPc → Option UInt32
  | .loaded c v _ => if c.field = f then some v else none
  | _ => none

namespace Senders

/-- the field `f` of `frame_counts` is the counter `k`, modulo `2 ^ 32` -/
structure Counted (f : Field) (s : Senders) (k : Race.Counter Caller) : Prop where
  value : s.canTx.frameCounts f = UInt32.ofNat k.value
  loaded : ∀ t, (s.pc t).holds f = (k.loaded t).map UInt32.ofNat

variable {cd : Candef} {s s' : Senders} {t : Caller} {c : Call} {f : Field}
  {k : Race.Counter Caller} {e : SenderEv}

/-- a step of a thread on other fields -/
theorem Counted.goto (h : Counted f s k) {tx : CanTx} {pc : CallPc}
    (hc : tx.frameCounts f = s.canTx.frameCounts f) (hp : pc.holds f = (s.pc t).holds f) :
    Counted f ({ s with canTx := tx }.goto t pc) k where
  value := hc.trans h.value
  loaded u := by
    by_cases hu : u = t
    · rw [hu, pc_goto, hp]
      exact h.loaded t
    · rw [pc_goto_of_ne hu]
      exact h.loaded u

theorem Counted.goto_pc (h : Counted f s k) {pc : CallPc} (hp : pc.holds f = (s.pc t).holds f) :
    Counted f (s.goto t pc) k  := by
  have hg : Counted f ({ s with canTx := s.canTx }.goto t pc) k := h.goto rfl hp
  exact hg

theorem Counted.start {calls : List Call} (h : Counted f s k) (hs : s.start t calls = some s') :
    Counted f s' k := by
  obtain ⟨hp, rfl⟩ := start_some hs
  exact h.goto_pc (by rw [hp]; rfl)

/-- the load of the field -/
theorem Counted.load (h : Counted f s k) (hf : c.field = f)
    (hs : Senders.step cd s (.load t c) = some s') :
    ∃ k', Race.step k (.load t) = some k' ∧ Counted f s' k' := by
  obtain ⟨l, hp, rfl⟩ := step_load hs
  have hnone : k.loaded t = none := by
    have := h.loaded t
    rw [hp] at this
    exact Option.map_eq_none_iff.mp this.symm
  refine ⟨{ k with loaded := Function.update k.loaded t (some k.value) }, ?_, h.value, ?_⟩
  · simp only [Race.step, hnone]
  · intro u
    by_cases hu : u = t
    · subst hu
      rw [pc_goto, CallPc.holds, if_pos hf, hf, h.value]
      simp
    · rw [pc_goto_of_ne hu, h.loaded u]
      simp [Function.update_of_ne hu]

/-- the store of the field -/
theorem Counted.store (h : Counted f s k) (hf : c.field = f)
    (hs : Senders.step cd s (.store t c) = some s') :
    ∃ k', Race.step k (.store t) = some k' ∧ Counted f s' k' := by
  obtain ⟨v, l, hp, rfl⟩ := step_store hs
  have hheld := h.loaded t
  rw [hp, CallPc.holds, if_pos hf] at hheld
  obtain ⟨w, hw, rfl⟩ := Option.map_eq_some_iff.mp hheld.symm
  refine ⟨{ value := w + 1, loaded := Function.update k.loaded t none }, ?_, ?_, ?_⟩
  · rw [Race.step, hw]
    rfl
  · show Function.update s.canTx.frameCounts c.field (UInt32.ofNat w + 1) f = _
    rw [hf, Function.update_self, CanTx.ofNat_add_one]
  · intro u
    by_cases hu : u = t
    · subst hu
      rw [pc_goto]
      simp [CallPc.holds]
    · rw [pc_goto_of_ne hu]
      simpa [Function.update_of_ne hu] using h.loaded u

/-- **one step is the counter's operation on the field, or none** -/
theorem Counted.step (h : Counted f s k) (hs : Senders.step cd s e = some s') :
    ∃ k', run Race.step k (e.op? f).toList = some k' ∧ Counted f s' k' := by
  cases e with
  | pass calls => exact ⟨k, rfl, h.start hs⟩
  | press d => exact ⟨k, rfl, h.start hs⟩
  | enqueue t c =>
    obtain ⟨l, hp, rfl⟩ := step_enqueue hs
    refine ⟨k, rfl, h.goto ?_ (by rw [hp]; rfl)⟩
    rw [Call.enqueue_frameCounts]
  | load t c =>
    by_cases hf : c.field = f
    · obtain ⟨k', hk, hk'⟩ := h.load hf hs
      refine ⟨k', ?_, hk'⟩
      rw [op_load, if_pos hf]
      exact run_cons_some.mpr ⟨k', hk, rfl⟩
    · obtain ⟨l, hp, rfl⟩ := step_load hs
      refine ⟨k, by rw [op_load, if_neg hf]; rfl, h.goto_pc ?_⟩
      rw [hp, CallPc.holds, if_neg hf]
      rfl
  | store t c =>
    by_cases hf : c.field = f
    · obtain ⟨k', hk, hk'⟩ := h.store hf hs
      refine ⟨k', ?_, hk'⟩
      rw [op_store, if_pos hf]
      exact run_cons_some.mpr ⟨k', hk, rfl⟩
    · obtain ⟨v, l, hp, rfl⟩ := step_store hs
      refine ⟨k, by rw [op_store, if_neg hf]; rfl, h.goto ?_ ?_⟩
      · exact Function.update_of_ne (Ne.symm hf) _ _
      · rw [hp]
        exact (if_neg hf).symm
  | remove =>
    obtain ⟨_, _, _, rfl⟩ := step_remove hs
    exact ⟨k, rfl, h.value, h.loaded⟩
  | purge =>
    obtain rfl := step_purge hs
    exact ⟨k, rfl, h.value, h.loaded⟩

theorem counted_run {evs : List SenderEv} (h : run (step cd) {} evs = some s) (f : Field) :
    ∃ k, run Race.step {} (ops f evs) = some k ∧ Counted f s k := by
  refine hist_run (I := fun evs s => ∃ k, run Race.step {} (ops f evs) = some k ∧ Counted f s k)
    ⟨{}, rfl, rfl, fun _ => rfl⟩ ?_ h
  rintro evs s e s' ⟨k, hk, hc⟩ hs
  obtain ⟨k', hk', hc'⟩ := hc.step hs
  refine ⟨k', ?_, hc'⟩
  rw [ops_snoc]
  exact run_append_some.mpr ⟨k, hk, hk'⟩

end Senders

/-! ## the same run with atomic calls -/

def SenderEv.atomic? : SenderEv → Option QueueEv
  | .enqueue _ c => some (.call c)
  | .remove => some .remove
  | .purge => some .purge
  | _ => none

/-- every call made in one step, at its enqueue -/
def atomically (evs : List SenderEv) : List QueueEv := evs.filterMap SenderEv.atomic?

@[simp] theorem atomically_snoc (evs : List SenderEv) (e : SenderEv) :
    atomically (evs ++ [e]) = atomically evs ++ e.atomic?.toList := filterMap_snoc _ evs e

/-- the call whose increment of the field `f` is still to be stored -/
def CallPc.pending (f : Field) : CallPc → Nat
  | .ready _ => 0
  | .enqueued c _ | .loaded c _ _ => if c.field = f then 1 else 0

namespace Senders

def pending (f : Field) (s : Senders) : Nat :=
  (s.pc .periodic).pending f + (s.pc .button).pending f

variable {cd : Candef} {s s' : Senders} {t : Caller} {c : Call} {f : Field} {tx : CanTx}
  {n : Field → Nat} {e : SenderEv}

theorem pending_goto (f : Field) (s : Senders) (t : Caller) (pc : CallPc) :
    (s.goto t pc).pending f + (s.pc t).pending f = s.pending f + pc.pending f := by
  have hself := pc_goto s t pc
  unfold pending
  cases t with
  | periodic =>
    rw [hself, pc_goto_of_ne (by decide : Caller.button ≠ .periodic)]
    omega
  | button =>
    rw [hself, pc_goto_of_ne (by decide : Caller.periodic ≠ .button)]
    omega

/-- the queue is that of the atomic run, whose counts run ahead of the stores by the calls that are
in progress -/
structure Linear (n : Field → Nat) (s : Senders) (tx : CanTx) : Prop where
  queue : s.canTx.canTxMsgq = tx.canTxMsgq
  queueFull : s.canTx.queueFull = tx.queueFull
  counts : ∀ f, tx.frameCounts f = UInt32.ofNat (n f + s.pending f)

/-- the stores of a field, with the event `e` counted -/
def stored (n : Field → Nat) (e : SenderEv) (f : Field) : Nat :=
  match e with
  | .store _ c => if c.field = f then n f + 1 else n f
  | _ => n f

theorem Linear.start {calls : List Call} (h : Linear n s tx) (hs : s.start t calls = some s') :
    Linear n s' tx := by
  obtain ⟨hp, rfl⟩ := start_some hs
  refine ⟨h.queue, h.queueFull, fun f => ?_⟩
  have hpend := pending_goto f s t (.ready calls)
  rw [hp] at hpend
  rw [h.counts f]
  exact congrArg (fun k => UInt32.ofNat (n f + k)) (Nat.add_right_cancel hpend).symm

theorem Linear.enqueue (h : Linear n s tx) (hs : Senders.step cd s (.enqueue t c) = some s') :
    Linear n s' (c.exec cd tx) := by
  obtain ⟨l, hp, rfl⟩ := step_enqueue hs
  obtain ⟨hq, hf⟩ := Call.enqueue_congr cd c h.queue h.queueFull
  rw [Call.exec_eq_enqueue]
  refine ⟨hq, hf, fun f => ?_⟩
  have hpend := pending_goto f s t (.enqueued c l)
  rw [hp] at hpend
  simp only [CallPc.pending, Nat.add_zero] at hpend
  show Function.update tx.frameCounts c.field (tx.frameCounts c.field + 1) f =
    UInt32.ofNat (n f + (s.goto t (.enqueued c l)).pending f)
  rw [hpend]
  by_cases hf : c.field = f
  · rw [if_pos hf, hf, Function.update_self, h.counts f, ← CanTx.ofNat_add_one, Nat.add_assoc]
  · rw [if_neg hf, Function.update_of_ne (Ne.symm hf)]
    exact h.counts f

theorem Linear.load (h : Linear n s tx) (hs : Senders.step cd s (.load t c) = some s') :
    Linear n s' tx := by
  obtain ⟨l, hp, rfl⟩ := step_load hs
  refine ⟨h.queue, h.queueFull, fun f => ?_⟩
  have hpend := pending_goto f s t (.loaded c (s.canTx.frameCounts c.field) l)
  rw [hp] at hpend
  rw [h.counts f]
  exact congrArg (fun k => UInt32.ofNat (n f + k)) (Nat.add_right_cancel hpend).symm

theorem Linear.store (h : Linear n s tx) (hs : Senders.step cd s (.store t c) = some s') :
    Linear (stored n (.store t c)) s' tx := by
  obtain ⟨v, l, hp, rfl⟩ := step_store hs
  refine ⟨h.queue, h.queueFull, fun f => ?_⟩
  rw [h.counts f]
  have hpend := pending_goto f s t (.ready l)
  rw [hp] at hpend
  simp only [CallPc.pending, Nat.add_zero] at hpend
  refine congrArg UInt32.ofNat ?_
  show n f + s.pending f = (if c.field = f then n f + 1 else n f) + (s.goto t (.ready l)).pending f
  by_cases hf : c.field = f
  · rw [if_pos hf] at hpend ⊢
    omega
  · rw [if_neg hf] at hpend ⊢
    omega

/-- **one step is the atomic step of the call at its enqueue, and no step otherwise** -/
theorem Linear.step (h : Linear n s tx) (hs : Senders.step cd s e = some s') :
    ∃ tx', run (CanTx.step cd) tx e.atomic?.toList = some tx' ∧ Linear (stored n e) s' tx' := by
  cases e with
  | pass calls => exact ⟨tx, rfl, h.start hs⟩
  | press d => exact ⟨tx, rfl, h.start hs⟩
  | enqueue t c => exact ⟨c.exec cd tx, rfl, h.enqueue hs⟩
  | load t c => exact ⟨tx, rfl, h.load hs⟩
  | store t c => exact ⟨tx, rfl, h.store hs⟩
  | remove =>
    obtain ⟨f, q, hq, rfl⟩ := step_remove hs
    refine ⟨{ tx with canTxMsgq := q }, ?_, rfl, h.queueFull, h.counts⟩
    refine run_cons_some.mpr ⟨{ tx with canTxMsgq := q }, ?_, rfl⟩
    rw [CanTx.step, ← h.queue, hq]
    rfl
  | purge =>
    obtain rfl := step_purge hs
    exact ⟨{ tx with canTxMsgq := Fifo.empty }, rfl, rfl, h.queueFull, h.counts⟩

theorem tally_stored (evs : List SenderEv) (e : SenderEv) :
    (fun f => (Race.tally (ops f (evs ++ [e]))).stores) =
      stored (fun f => (Race.tally (ops f evs)).stores) e := by
  funext f
  rw [ops_snoc]
  have hnil : (Race.tally (ops f evs ++ [])).stores = (Race.tally (ops f evs)).stores :=
    congrArg (fun l => (Race.tally l).stores) (List.append_nil _)
  cases e with
  | load t c =>
    rw [op_load]
    by_cases hf : c.field = f
    · rw [if_pos hf, Option.toList_some, Race.tally_snoc]
      rfl
    · rw [if_neg hf]
      exact hnil
  | store t c =>
    rw [op_store]
    show _ = if c.field = f then (Race.tally (ops f evs)).stores + 1 else _
    by_cases hf : c.field = f
    · rw [if_pos hf, if_pos hf, Option.toList_some, Race.tally_snoc]
      rfl
    · rw [if_neg hf, if_neg hf]
      exact hnil
  | pass | press | enqueue | remove | purge => exact hnil

theorem linear_run {evs : List SenderEv} (h : run (step cd) {} evs = some s) :
    ∃ tx, run (CanTx.step cd) {} (atomically evs) = some tx ∧
      Linear (fun f => (Race.tally (ops f evs)).stores) s tx := by
  refine hist_run (I := fun evs s => ∃ tx, run (CanTx.step cd) {} (atomically evs) = some tx ∧
    Linear (fun f => (Race.tally (ops f evs)).stores) s tx)
    ⟨{}, rfl, rfl, rfl, fun _ => rfl⟩ ?_ h
  rintro evs s e s' ⟨tx, htx, hl⟩ hs
  obtain ⟨tx', htx', hl'⟩ := hl.step hs
  refine ⟨tx', ?_, ?_⟩
  · rw [atomically_snoc]
    exact run_append_some.mpr ⟨tx, htx, htx'⟩
  · rw [tally_stored]
    exact hl'

theorem AtRest.pending (h : s.AtRest) (f : Field) : s.pending f = 0 := by
  unfold Senders.pending
  rw [h .periodic, h .button]
  rfl

/-- **In every interleaving of the two threads' senders the queue is the one of the atomic senders.
Once no call is in progress, `frame_counts` of a field never exceeds the atomic count, falls short
of it by at most the stores that fell into an increment of the other thread, and is that count if
and only if none did.** -/
theorem senders_linear {evs : List SenderEv} (hrun : run (step cd) {} evs = some s) :
    ∃ tx, run (CanTx.step cd) {} (atomically evs) = some tx ∧
      s.canTx.canTxMsgq = tx.canTxMsgq ∧ s.canTx.queueFull = tx.queueFull ∧
      (s.AtRest → ∀ f, ∃ v n, s.canTx.frameCounts f = UInt32.ofNat v ∧
        tx.frameCounts f = UInt32.ofNat n ∧ v ≤ n ∧ n ≤ v + (Race.tally (ops f evs)).met ∧
        (v = n ↔ (Race.tally (ops f evs)).met = 0)) := by
  obtain ⟨tx, htx, hl⟩ := linear_run hrun
  refine ⟨tx, htx, hl.queue, hl.queueFull, fun hrest f => ?_⟩
  obtain ⟨k, hk, hc⟩ := counted_run hrun f
  have hcount := hl.counts f
  rw [hrest.pending] at hcount
  exact ⟨k.value, (Race.tally (ops f evs)).stores, hc.value, hcount, Race.lost hk⟩

/-- the test counts a frame between the load and the store of the periodic thread -/
def lostRun : List SenderEv :=
  [.pass [.sendMcuState {}], .enqueue .periodic (.sendMcuState {}),
    .load .periodic (.sendMcuState {}), .press {}] ++
  ((testSendAll {}).flatMap fun c => [.enqueue .button c, .load .button c, .store .button c]) ++
  [.store .periodic (.sendMcuState {})]

theorem senders_linear_lostRun :
    ∃ s v n, run (step Candef.bytewise) {} lostRun = some s ∧ s.AtRest ∧
      s.canTx.frameCounts .mcuState = 1 ∧ s.canTx.frameCounts .mcuState = UInt32.ofNat v ∧
      (Race.tally (ops .mcuState lostRun)).met = 1 ∧ v < n ∧ n ≤ v + 1 := by
  obtain ⟨s, hrun, hrest, hcount⟩ : ∃ s, run (step Candef.bytewise) {} lostRun = some s ∧
      (s.pc .periodic = .ready [] ∧ s.pc .button = .ready []) ∧
      s.canTx.frameCounts .mcuState = 1 := by
    decide +kernel
  have hrest' : s.AtRest := by
    intro t
    cases t with
    | periodic => exact hrest.1
    | button => exact hrest.2
  have hmet : (Race.tally (ops .mcuState lostRun)).met = 1 := by decide +kernel
  obtain ⟨tx, _, _, _, hf⟩ := senders_linear hrun
  obtain ⟨v, n, hv, _, hle, hbound, hiff⟩ := hf hrest' .mcuState
  rw [hmet] at hbound hiff
  refine ⟨s, v, n, hrun, hrest', hcount, hv, hmet, ?_, hbound⟩
  exact Nat.lt_of_le_of_ne hle fun h => absurd (hiff.mp h) Nat.one_ne_zero

end Senders

/-! ## the fields the test does not send -/

/-- the calls the thread is in or has to make -/
def CallPc.calls : CallPc → List Call
  | .ready calls => calls
  | .enqueued c calls | .loaded c _ calls => c :: calls

namespace Senders

/-- the button has no call on the field `f` -/
def Off (f : Field) (s : Senders) : Prop := ∀ c ∈ (s.pc .button).calls, c.field ≠ f

variable {cd : Candef} {s s' : Senders} {t : Caller} {f : Field} {e : SenderEv}

theorem Off.goto (h : Off f s) {pc : CallPc} (hpc : t = .button → ∀ c ∈ pc.calls, c.field ≠ f) :
    Off f (s.goto t pc) := by
  intro c hc
  cases t with
  | periodic =>
    rw [pc_goto_of_ne (by decide : Caller.button ≠ .periodic)] at hc
    exact h c hc
  | button =>
    rw [pc_goto] at hc
    exact hpc rfl c hc

/-- the calls after the step are among those before it -/
theorem Off.goto_sub (h : Off f s) {pc : CallPc} (hpc : ∀ c ∈ pc.calls, c ∈ (s.pc t).calls) :
    Off f (s.goto t pc) := by
  refine h.goto fun ht c hc => ?_
  subst ht
  exact h c (hpc c hc)

/-- the button is in no call on the field -/
theorem Off.periodic (h : Off f s) {c : Call} (hc : c ∈ (s.pc t).calls) (hf : c.field = f) :
    t = .periodic := by
  cases t with
  | periodic => rfl
  | button => exact absurd hf (h c hc)

theorem Off.step (hf : ∀ d, ∀ c ∈ testSendAll d, c.field ≠ f) (h : Off f s)
    (hs : Senders.step cd s e = some s') :
    Off f s' ∧ ∀ o ∈ (e.op? f).toList, o.thread = .periodic := by
  have hnone : ∀ o ∈ (none : Option (Race.Op Caller)).toList, o.thread = .periodic :=
    fun o ho => absurd ho List.not_mem_nil
  cases e with
  | pass calls =>
    obtain ⟨_, rfl⟩ := start_some hs
    exact ⟨h.goto (nofun), hnone⟩
  | press d =>
    obtain ⟨_, rfl⟩ := start_some hs
    exact ⟨h.goto fun _ => hf d, hnone⟩
  | enqueue t c =>
    obtain ⟨l, hp, rfl⟩ := step_enqueue hs
    exact ⟨h.goto_sub fun x hx => hp ▸ hx, hnone⟩
  | load t c =>
    obtain ⟨l, hp, rfl⟩ := step_load hs
    refine ⟨h.goto_sub fun x hx => hp ▸ hx, ?_⟩
    rw [op_load]
    split
    · rename_i hc
      intro o ho
      rw [List.mem_singleton.mp ho]
      exact h.periodic (hp ▸ List.mem_cons_self) hc
    · exact hnone
  | store t c =>
    obtain ⟨v, l, hp, rfl⟩ := step_store hs
    refine ⟨h.goto_sub fun x hx => hp ▸ List.mem_cons_of_mem c hx, ?_⟩
    rw [op_store]
    split
    · rename_i hc
      intro o ho
      rw [List.mem_singleton.mp ho]
      exact h.periodic (hp ▸ List.mem_cons_self) hc
    · exact hnone
  | remove =>
    obtain ⟨_, _, _, rfl⟩ := step_remove hs
    exact ⟨h, hnone⟩
  | purge =>
    obtain rfl := step_purge hs
    exact ⟨h, hnone⟩

theorem off_run (hf : ∀ d, ∀ c ∈ testSendAll d, c.field ≠ f) {evs : List SenderEv}
    (h : run (step cd) {} evs = some s) : ∀ o ∈ ops f evs, o.thread = .periodic := by
  have hinv : Off f s ∧ ∀ o ∈ ops f evs, o.thread = .periodic := by
    refine hist_run (I := fun evs s => Off f s ∧ ∀ o ∈ ops f evs, o.thread = .periodic)
      ⟨fun c hc => absurd hc List.not_mem_nil, fun o ho => absurd ho List.not_mem_nil⟩ ?_ h
    rintro evs s e s' ⟨hoff, hops⟩ hs
    obtain ⟨hoff', hop⟩ := hoff.step hf hs
    refine ⟨hoff', fun o ho => ?_⟩
    rw [ops_snoc] at ho
    rcases List.mem_append.mp ho with ho | ho
    · exact hops o ho
    · exact hop o ho
  exact hinv.2

/-- **A field that the test does not send is exact at every moment of every interleaving: it is the
count of the atomic senders less the call in progress.** -/
theorem periodic_only_exact (hf : ∀ d, ∀ c ∈ testSendAll d, c.field ≠ f) {evs : List SenderEv}
    (hrun : run (step cd) {} evs = some s) :
    ∃ tx, run (CanTx.step cd) {} (atomically evs) = some tx ∧
      tx.frameCounts f = s.canTx.frameCounts f + UInt32.ofNat (s.pending f) := by
  obtain ⟨tx, htx, hl⟩ := linear_run hrun
  obtain ⟨k, hk, hc⟩ := counted_run hrun f
  obtain ⟨hmet, _⟩ := Race.met_solo (off_run hf hrun)
  have hexact : k.value = (Race.tally (ops f evs)).stores := (Race.lost hk).2.2.mpr hmet
  refine ⟨tx, htx, ?_⟩
  rw [hl.counts f, hc.value, hexact]
  exact UInt32.ofNat_add _ _

/-- a pass in the middle of its second Protium call, with the test in the middle of its first -/
def protiumRun : List SenderEv :=
  [.pass [.sendProtiumPower {}, .sendProtiumPower {}], .enqueue .periodic (.sendProtiumPower {}),
    .load .periodic (.sendProtiumPower {}), .press {},
    .enqueue .button (.sendMcuAnalogSpeed {}), .load .button (.sendMcuAnalogSpeed {}),
    .store .periodic (.sendProtiumPower {}), .enqueue .periodic (.sendProtiumPower {})]

theorem periodic_only_exact_protiumRun :
    ∃ (s : Senders) (tx : CanTx), run (step Candef.bytewise) {} protiumRun = some s ∧
      run (CanTx.step Candef.bytewise) {} (atomically protiumRun) = some tx ∧
      s.canTx.frameCounts .protiumPower = 1 ∧ s.pending .protiumPower = 1 ∧
      tx.frameCounts .protiumPower = 2 := by
  obtain ⟨s, hrun, hpend, hcount⟩ : ∃ s, run (step Candef.bytewise) {} protiumRun = some s ∧
      s.pending .protiumPower = 1 ∧ s.canTx.frameCounts .protiumPower = 1 := by
    decide +kernel
  have hf : ∀ d, ∀ c ∈ testSendAll d, c.field ≠ .protiumPower := by
    intro d c hc
    rcases List.mem_append.mp hc with hc | hc
    · simp only [List.mem_cons, List.not_mem_nil, or_false] at hc
      rcases hc with rfl | rfl | rfl | rfl | rfl | rfl | rfl | rfl | rfl <;> simp [Call.field]
    · split at hc
      · rw [List.mem_singleton.mp hc]
        simp [Call.field]
      · exact absurd hc List.not_mem_nil
  obtain ⟨tx, hatomic, htx⟩ := periodic_only_exact hf hrun
  exact ⟨s, tx, hrun, hatomic, hcount, hpend, by rw [htx, hcount, hpend]; rfl⟩

end Senders

end CCU
