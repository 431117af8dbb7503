import CanConverter.Lib.History

/-!
# Bus-off recovery and the status LED

The driver's callback `can_state_change_cb`, the work item `bus_off_recovery_work` with its
handler, the end of `main` and the two DFU hooks step in any order.  The callback is one step; the
handler blocks in `can_recover` and is split around it.

A work item that is pending stays so until its handler starts; `k_work_reschedule` makes it
pending, also from inside the handler.  One that is already queued when it is rescheduled, and that
the kernel may then run twice, is merged into one run.

* `Recovered ok l`   a `can_recover` that was called in `l` has returned a value that is `ok`;
* `Owed l`           a bus-off was reported and no `can_recover` has dealt with it since.
-/

namespace CCU
open Runs

/-- `enum can_state` -/
inductive CanState where
  | errorActive | errorWarning | errorPassive | busOff | stopped
deriving DecidableEq

/-- the arguments of `status_led_set` -/
inductive StatusLed where
  | operational | warning | busOff | dfu
deriving DecidableEq

def enotsup : Int := 134

/-- the calls that leave the callback, the handler and the hooks -/
inductive BusCall where
  | statusLedSet (led : StatusLed)
  | purgeTxMsgq
  | rescheduleRecovery (delayMs : Nat)
deriving DecidableEq

def canStateChangeCb : CanState → List BusCall
  | .errorActive => [.statusLedSet .operational]
  | .errorWarning => [.statusLedSet .warning]
  | .errorPassive => [.statusLedSet .warning]
  | .busOff => [.statusLedSet .busOff, .purgeTxMsgq, .rescheduleRecovery 100]
  | .stopped => []

/-- what the handler does with the result of `can_recover` -/
def busOffRecoveryHandler (ret : Int) : List BusCall :=
  if ret ≠ 0 ∧ ret ≠ -enotsup then [.rescheduleRecovery 1000] -- "CAN recovery failed"
  else [.statusLedSet .operational] -- "CAN bus recovered"

def onDfuStart : List BusCall := [.statusLedSet .dfu]
def onDfuEnd : List BusCall := [.statusLedSet .operational]

/-- the last call of `main` -/
def mainEnd : List BusCall := [.statusLedSet .operational]

/-- where the handler is -/
inductive HandlerPc where
  | idle
  | started
  | recovering
  | returned (ret : Int)
deriving DecidableEq

structure Bus where
  statusLed : Option StatusLed := none
  /-- the delay `bus_off_recovery_work` was last scheduled with, while it is pending -/
  busOffRecoveryWork : Option Nat := none
  /-- how often `can_tx_msgq` was purged -/
  purges : Nat := 0
  handler : HandlerPc := .idle
  mainRuns : Bool := true
deriving DecidableEq

inductive BusEv where
  | stateChange (state : CanState)
  | workExpires
  | recoverCalled
  | recoverReturns (ret : Int)
  | handlerEnds
  | mainEnds
  | dfuStart
  | dfuEnd
deriving DecidableEq

namespace Bus

def exec (s : Bus) : BusCall → Bus
  | .statusLedSet led => { s with statusLed := some led }
  | .purgeTxMsgq => { s with purges := s.purges + 1 }
  | .rescheduleRecovery delayMs => { s with busOffRecoveryWork := some delayMs }

def execAll (s : Bus) (l : List BusCall) : Bus := l.foldl exec s

def step (s : Bus) : BusEv → Option Bus
  | .stateChange state => some (s.execAll (canStateChangeCb state))
  | .workExpires =>
    match s.handler, s.busOffRecoveryWork with
    | .idle, some _ => some { s with busOffRecoveryWork := none, handler := .started }
    | _, _ => none
  | .recoverCalled =>
    match s.handler with
    | .started => some { s with handler := .recovering }
    | _ => none
  | .recoverReturns ret =>
    match s.handler with
    | .recovering => some { s with handler := .returned ret }
    | _ => none
  | .handlerEnds =>
    match s.handler with
    | .returned ret => some { s.execAll (busOffRecoveryHandler ret) with handler := .idle }
    | _ => none
  | .mainEnds => if s.mainRuns then some { s.execAll mainEnd with mainRuns := false } else none
  | .dfuStart => some (s.execAll onDfuStart)
  | .dfuEnd => some (s.execAll onDfuEnd)

/-! ## what a step can do -/

section
variable {s t : Bus}

theorem step_stateChange {state : CanState} (h : s.step (.stateChange state) = some t) :
    t = s.execAll (canStateChangeCb state) := (Option.some.inj h).symm

theorem step_workExpires (h : s.step .workExpires = some t) :
    s.handler = .idle ∧ s.busOffRecoveryWork.isSome = true ∧
      t = { s with busOffRecoveryWork := none, handler := .started } := by
  simp only [step] at h
  split at h
  · rename_i hp hw
    exact ⟨hp, Option.isSome_iff_exists.mpr ⟨_, hw⟩, (Option.some.inj h).symm⟩
  · cases h

theorem step_recoverCalled (h : s.step .recoverCalled = some t) :
    s.handler = .started ∧ t = { s with handler := .recovering } := by
  simp only [step] at h
  split at h
  · rename_i hp
    exact ⟨hp, (Option.some.inj h).symm⟩
  · cases h

theorem step_recoverReturns {ret : Int} (h : s.step (.recoverReturns ret) = some t) :
    s.handler = .recovering ∧ t = { s with handler := .returned ret } := by
  simp only [step] at h
  split at h
  · rename_i hp
    exact ⟨hp, (Option.some.inj h).symm⟩
  · cases h

theorem step_handlerEnds (h : s.step .handlerEnds = some t) :
    ∃ ret, s.handler = .returned ret ∧
      t = { s.execAll (busOffRecoveryHandler ret) with handler := .idle } := by
  simp only [step] at h
  split at h
  · rename_i ret hp
    exact ⟨ret, hp, (Option.some.inj h).symm⟩
  · cases h

theorem step_mainEnds (h : s.step .mainEnds = some t) :
    s.mainRuns = true ∧ t = { s.execAll mainEnd with mainRuns := false } := by
  simp only [step] at h
  split at h
  · rename_i hm
    exact ⟨hm, (Option.some.inj h).symm⟩
  · cases h

/-- the handler schedules its work again exactly if it did not recover -/
theorem busOffRecoveryHandler_cases (ret : Int) :
    ((ret = 0 ∨ ret = -enotsup) ∧ busOffRecoveryHandler ret = [.statusLedSet .operational]) ∨
    (¬ (ret = 0 ∨ ret = -enotsup) ∧ busOffRecoveryHandler ret = [.rescheduleRecovery 1000]) := by
  unfold busOffRecoveryHandler
  by_cases hret : ret = 0 ∨ ret = -enotsup
  · exact .inl ⟨hret, if_neg fun hn => hret.elim hn.1 hn.2⟩
  · exact .inr ⟨hret, if_pos (not_or.mp hret)⟩

/-- only the callback purges the queue, and it does so exactly at a bus-off -/
theorem purges_step {e : BusEv} (h : s.step e = some t) :
    t.purges = s.purges + if e = .stateChange .busOff then 1 else 0 := by
  cases e with
  | stateChange state =>
    rw [step_stateChange h]
    cases state <;> rfl
  | workExpires =>
    obtain ⟨_, _, rfl⟩ := step_workExpires h
    rfl
  | recoverCalled =>
    obtain ⟨_, rfl⟩ := step_recoverCalled h
    rfl
  | recoverReturns ret =>
    obtain ⟨_, rfl⟩ := step_recoverReturns h
    rfl
  | handlerEnds =>
    obtain ⟨ret, _, rfl⟩ := step_handlerEnds h
    rcases busOffRecoveryHandler_cases ret with ⟨_, hcalls⟩ | ⟨_, hcalls⟩
    · rw [hcalls]
      rfl
    · rw [hcalls]
      rfl
  | mainEnds =>
    obtain ⟨_, rfl⟩ := step_mainEnds h
    rfl
  | dfuStart | dfuEnd =>
    rw [← Option.some.inj h]
    rfl

end

/-- **the queue is purged once for every bus-off, however the steps interleave** -/
theorem purges_run {evs : List BusEv} {s : Bus} (hrun : Runs.run step {} evs = some s) :
    s.purges = evs.count (.stateChange .busOff) := by
  refine hist_run (I := fun l s => s.purges = l.count (.stateChange .busOff)) rfl ?_ hrun
  intro l s e t hs hstep
  simp only [purges_step hstep, hs, List.count_append, List.count_singleton, beq_iff_eq]

/-! ## what the history says -/

/-- `can_recover` was called in `l` and has returned a value that is `ok` -/
def Recovered (ok : Int → Prop) (l : List BusEv) : Prop :=
  ∃ a b ret, l = a ++ .recoverCalled :: b ∧ .recoverReturns ret ∈ b ∧ ok ret

def busOffReport : BusEv → Option Unit
  | .stateChange .busOff => some ()
  | _ => none

/-- the values the handler takes for a recovery -/
def GaveUp (ret : Int) : Prop := ret = 0 ∨ ret = -enotsup

/-- a bus-off was reported, and no `can_recover` called after the latest report has returned `0`
or `-ENOTSUP` -/
def Owed (l : List BusEv) : Prop := ∃ p ∈ since busOffReport l, ¬ Recovered GaveUp p.2

/-- `can_recover` was called after the latest report of a bus-off -/
def CalledSince (l : List BusEv) : Prop := ∃ p ∈ since busOffReport l, .recoverCalled ∈ p.2

section
variable {ok : Int → Prop} {l : List BusEv} {e : BusEv}

theorem not_recovered_nil : ¬ Recovered ok [] := by
  rintro ⟨a, b, ret, hl, _⟩
  exact List.append_ne_nil_of_right_ne_nil a (List.cons_ne_nil _ b) hl.symm

theorem recovered_cons :
    Recovered ok (e :: l) ↔
      (e = .recoverCalled ∧ ∃ d ∈ l, ∃ ret, d = .recoverReturns ret ∧ ok ret) ∨ Recovered ok l := by
  constructor
  · rintro ⟨a, b, ret, hl, hret, hok⟩
    cases a with
    | nil =>
      obtain ⟨rfl, rfl⟩ := List.cons.inj hl
      exact .inl ⟨rfl, _, hret, ret, rfl, hok⟩
    | cons d a =>
      obtain ⟨_, rfl⟩ := List.cons.inj hl
      exact .inr ⟨a, b, ret, rfl, hret, hok⟩
  · rintro (⟨rfl, _, hd, ret, rfl, hok⟩ | ⟨a, b, ret, rfl, hret, hok⟩)
    · exact ⟨[], l, ret, rfl, hd, hok⟩
    · exact ⟨e :: a, b, ret, rfl, hret, hok⟩

theorem Recovered.of_suffix {l' : List BusEv} (h : Recovered ok l) (pre : List BusEv)
    (hl : l' = pre ++ l) : Recovered ok l' := by
  obtain ⟨a, b, ret, rfl, hret, hok⟩ := h
  exact ⟨pre ++ a, b, ret, by rw [hl, List.append_assoc], hret, hok⟩

instance [DecidablePred ok] (e : BusEv) : Decidable (∃ ret, e = .recoverReturns ret ∧ ok ret) :=
  match e with
  | .recoverReturns ret =>
    decidable_of_iff (ok ret) ⟨fun h => ⟨ret, rfl, h⟩, fun ⟨_, h, hok⟩ => by cases h; exact hok⟩
  | .stateChange _ | .workExpires | .recoverCalled | .handlerEnds | .mainEnds | .dfuStart
  | .dfuEnd => isFalse nofun

instance Recovered.decidable [DecidablePred ok] : ∀ l, Decidable (Recovered ok l)
  | [] => isFalse not_recovered_nil
  | _ :: l =>
    have := Recovered.decidable l
    decidable_of_iff _ recovered_cons.symm

instance : DecidablePred GaveUp := fun ret => inferInstanceAs (Decidable (ret = 0 ∨ ret = -enotsup))
instance : DecidablePred Owed :=
  fun l => inferInstanceAs (Decidable (∃ p ∈ since busOffReport l, ¬ Recovered GaveUp p.2))

theorem Recovered.snoc (h : Recovered ok l) (e : BusEv) : Recovered ok (l ++ [e]) := by
  obtain ⟨a, b, ret, rfl, hret, hok⟩ := h
  exact ⟨a, b ++ [e], ret, List.append_assoc _ _ _, List.mem_append_left _ hret, hok⟩

/-- the result of a call that was made in `l` -/
theorem Recovered.of_called {ret : Int} (h : .recoverCalled ∈ l) (hok : ok ret) :
    Recovered ok (l ++ [.recoverReturns ret]) := by
  obtain ⟨a, b, rfl⟩ := List.append_of_mem h
  exact ⟨a, b ++ [.recoverReturns ret], ret, List.append_assoc _ _ _,
    List.mem_append_right _ (List.mem_singleton.mpr rfl), hok⟩

/-- only a result of `can_recover` recovers the bus -/
theorem Recovered.of_snoc (h : Recovered ok (l ++ [e])) (he : ∀ ret, e ≠ .recoverReturns ret) :
    Recovered ok l := by
  obtain ⟨a, b, ret, hl, hret, hok⟩ := h
  induction b using List.reverseRecOn with
  | nil => exact absurd hret List.not_mem_nil
  | append_singleton b d _ =>
    have hl' : l ++ [e] = (a ++ .recoverCalled :: b) ++ [d] := by
      rw [hl, List.append_assoc]
      rfl
    obtain ⟨rfl, hd⟩ := List.append_inj' hl' rfl
    obtain rfl := (List.cons.inj hd).1
    rcases List.mem_append.mp hret with hret | hret
    · exact ⟨a, b, ret, rfl, hret, hok⟩
    · exact absurd (List.mem_singleton.mp hret).symm (he ret)

/-- an event that reports no bus-off leaves a debt only where there was one -/
theorem Owed.of_snoc (h : Owed (l ++ [e])) (he : busOffReport e = none) : Owed l := by
  obtain ⟨_, hs, hn⟩ := h
  rw [since_snoc_none he] at hs
  obtain ⟨p, hl, rfl⟩ := Option.map_eq_some_iff.mp hs
  exact ⟨p, hl, fun hr => hn (hr.snoc e)⟩

theorem CalledSince.snoc (h : CalledSince l) (he : busOffReport e = none) :
    CalledSince (l ++ [e]) := by
  obtain ⟨p, hl, hc⟩ := h
  exact ⟨(p.1, p.2 ++ [e]), by rw [since_snoc_none he, hl]; rfl, List.mem_append_left _ hc⟩

/-- a call of `can_recover` while something is owed comes after the report -/
theorem Owed.called (h : Owed l) : CalledSince (l ++ [.recoverCalled]) := by
  obtain ⟨p, hl, _⟩ := h
  exact ⟨(p.1, p.2 ++ [.recoverCalled]), by rw [since_snoc_none (by rfl), hl]; rfl,
    List.mem_append_right _ (List.mem_singleton.mpr rfl)⟩

/-- what such a call returned was no recovery, if something is still owed -/
theorem CalledSince.failed {ret : Int} (h : CalledSince l) (ho : Owed (l ++ [.recoverReturns ret])) :
    ¬ GaveUp ret := by
  intro hok
  obtain ⟨p, hl, hc⟩ := h
  obtain ⟨_, hs, hn⟩ := ho
  rw [since_snoc_none (by rfl), hl] at hs
  obtain rfl := Option.some.inj hs
  exact hn (Recovered.of_called hc hok)

end

/-! ## the debt is always in somebody's hands -/

/-- who will deal with the bus-off: the pending work, or the handler with a call of `can_recover`
that it still has to make, has made since the report, or has seen fail -/
inductive InHand (l : List BusEv) (s : Bus) : Prop where
  | pending (h : s.busOffRecoveryWork.isSome = true)
  | started (h : s.handler = .started)
  | recovering (h : s.handler = .recovering) (hc : CalledSince l)
  | failed (ret : Int) (h : s.handler = .returned ret) (hret : ¬ GaveUp ret)

section
variable {l : List BusEv} {s t : Bus} {e : BusEv}

theorem InHand.of_same (hs : InHand l s) (he : busOffReport e = none)
    (hw : t.busOffRecoveryWork = s.busOffRecoveryWork) (hh : t.handler = s.handler) :
    InHand (l ++ [e]) t := by
  cases hs with
  | pending h => exact .pending (hw ▸ h)
  | started h => exact .started (hh.trans h)
  | recovering h hc => exact .recovering (hh.trans h) (hc.snoc he)
  | failed ret h hret => exact .failed ret (hh.trans h) hret

/-- **one more event** -/
theorem InHand.step (hs : Owed l → InHand l s) (hstep : s.step e = some t)
    (ho : Owed (l ++ [e])) : InHand (l ++ [e]) t := by
  cases e with
  | stateChange state =>
    rw [step_stateChange hstep]
    cases state with
    | busOff => exact .pending rfl
    | _ => exact (hs (ho.of_snoc rfl)).of_same rfl rfl rfl
  | workExpires =>
    obtain ⟨_, _, rfl⟩ := step_workExpires hstep
    exact .started rfl
  | recoverCalled =>
    obtain ⟨_, rfl⟩ := step_recoverCalled hstep
    exact .recovering rfl (ho.of_snoc rfl).called
  | recoverReturns ret =>
    obtain ⟨hp, rfl⟩ := step_recoverReturns hstep
    cases hs (ho.of_snoc rfl) with
    | pending h => exact .pending h
    | started h => exact nomatch hp.symm.trans h
    | recovering h hc => exact .failed ret rfl (hc.failed ho)
    | failed ret h hret => exact nomatch hp.symm.trans h
  | handlerEnds =>
    obtain ⟨ret, hp, rfl⟩ := step_handlerEnds hstep
    rcases busOffRecoveryHandler_cases ret with ⟨hret, hcalls⟩ | ⟨_, hcalls⟩
    · rw [hcalls]
      cases hs (ho.of_snoc rfl) with
      | pending h => exact .pending h
      | started h => exact nomatch hp.symm.trans h
      | recovering h hc => exact nomatch hp.symm.trans h
      | failed ret' h hret' =>
        obtain rfl := HandlerPc.returned.inj (hp.symm.trans h)
        exact absurd hret hret'
    · rw [hcalls]
      exact .pending rfl
  | mainEnds =>
    obtain ⟨_, rfl⟩ := step_mainEnds hstep
    exact (hs (ho.of_snoc rfl)).of_same rfl rfl rfl
  | dfuStart | dfuEnd =>
    rw [← Option.some.inj hstep]
    exact (hs (ho.of_snoc rfl)).of_same rfl rfl rfl

end

theorem InHand.run {evs : List BusEv} {s : Bus} (hrun : Runs.run Bus.step {} evs = some s) :
    Owed evs → InHand evs s :=
  hist_run (I := fun l s => Owed l → InHand l s)
    (fun ⟨_, hs, _⟩ => nomatch hs)
    (fun _ _ _ _ hs hstep => InHand.step hs hstep) hrun

/-- **Bus-off never leaves the unit without a recovery attempt**: as long as a recovery is owed,
the work is pending or its handler is running. -/
theorem busOff_recovery_pending (evs : List BusEv) (s : Bus)
    (hrun : Runs.run Bus.step {} evs = some s) (howed : Owed evs) :
    s.busOffRecoveryWork.isSome = true ∨ s.handler ≠ .idle := by
  cases InHand.run hrun howed with
  | pending h => exact .inl h
  | started h | recovering h hc | failed ret h hret =>
    refine .inr ?_
    rw [h]
    exact nofun

/-- a bus-off comes in while the recovery from an older one is under way, which then succeeds -/
def secondBusOff : List BusEv :=
  [.stateChange .busOff, .workExpires, .recoverCalled, .stateChange .busOff, .recoverReturns 0,
    .handlerEnds]

theorem busOff_recovery_pending_secondBusOff :
    ∃ s, Runs.run Bus.step {} secondBusOff = some s ∧ Owed secondBusOff ∧
      (s.busOffRecoveryWork.isSome = true ∨ s.handler ≠ .idle) := by
  have howed : Owed secondBusOff := by decide
  obtain ⟨s, hrun⟩ : ∃ s, Runs.run Bus.step {} secondBusOff = some s := ⟨_, rfl⟩
  exact ⟨s, hrun, howed, busOff_recovery_pending secondBusOff s hrun howed⟩

end Bus

end CCU
