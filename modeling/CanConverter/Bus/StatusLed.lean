import CanConverter.Bus.Recovery

/-!
# Where the status LED shows the state of the bus

The callback sets the LED to what the driver reported.  Three other places set it to
`STATUS_LED_OPERATIONAL` without looking at the bus: the end of `main`, the end of a DFU, and the
handler, which does so for `-ENOTSUP` too and does not know of a report that came in while it was
in `can_recover`.

* `Degraded l`            the last report was a degraded state, and no `can_recover` called since
                          has returned `0`;
* `Claims s e`            the event `e` is one of the three places setting the LED;
* `truthful_iff_quiet`    the LED is truthful in every state of a run exactly if none of the three
                          does so while the bus is degraded.
-/

namespace CCU
open Runs

/-- the states of a bus that is not in order -/
def CanState.IsDegraded (state : CanState) : Prop :=
  state = .errorWarning ∨ state = .errorPassive ∨ state = .busOff

instance : DecidablePred CanState.IsDegraded :=
  fun state => inferInstanceAs (Decidable (state = _ ∨ state = _ ∨ state = _))

namespace Bus

def reported : BusEv → Option CanState
  | .stateChange state => some state
  | _ => none

/-- the last report was a degraded state, and no `can_recover` called since has returned `0` -/
def Degraded (l : List BusEv) : Prop :=
  ∃ p ∈ since reported l, p.1.IsDegraded ∧ ¬ Recovered (· = 0) p.2

/-- the LED does not claim health while the bus is degraded -/
def Truthful (p : List BusEv × Bus) : Prop :=
  p.2.statusLed = some .operational → ¬ Degraded p.1

/-- a step that sets the LED to `STATUS_LED_OPERATIONAL` without a report of the driver -/
def Claims (s : Bus) : BusEv → Prop
  | .mainEnds | .dfuEnd => True
  | .handlerEnds => s.handler = .returned 0 ∨ s.handler = .returned (-enotsup)
  | _ => False

/-- the step does not claim health of a degraded bus -/
def Quiet (p : List BusEv × Bus) (e : BusEv) : Prop := Claims p.2 e → ¬ Degraded p.1

instance : DecidablePred Degraded := fun l =>
  inferInstanceAs (Decidable (∃ p ∈ since reported l, p.1.IsDegraded ∧ ¬ Recovered (· = 0) p.2))

instance (s : Bus) : DecidablePred (Claims s)
  | .mainEnds | .dfuEnd => isTrue True.intro
  | .handlerEnds =>
    inferInstanceAs (Decidable (s.handler = .returned 0 ∨ s.handler = .returned (-enotsup)))
  | .stateChange _ | .workExpires | .recoverCalled | .recoverReturns _ | .dfuStart => isFalse id

instance (p : List BusEv × Bus) (e : BusEv) : Decidable (Quiet p e) :=
  inferInstanceAs (Decidable (Claims p.2 e → ¬ Degraded p.1))

section
variable {l : List BusEv} {s t : Bus} {e : BusEv}

theorem Degraded.of_snoc (h : Degraded (l ++ [e])) (he : reported e = none) : Degraded l := by
  obtain ⟨_, hs, hd, hn⟩ := h
  rw [since_snoc_none he] at hs
  obtain ⟨p, hl, rfl⟩ := Option.map_eq_some_iff.mp hs
  exact ⟨p, hl, hd, fun hr => hn (hr.snoc e)⟩

/-- only a report or a result of `can_recover` ends it -/
theorem Degraded.snoc (h : Degraded l) (he : reported e = none)
    (hret : ∀ ret, e ≠ .recoverReturns ret) : Degraded (l ++ [e]) := by
  obtain ⟨p, hl, hd, hn⟩ := h
  exact ⟨(p.1, p.2 ++ [e]), by rw [since_snoc_none he, hl]; rfl, hd,
    fun hr => hn (hr.of_snoc hret)⟩

theorem degraded_report {state : CanState} (h : Degraded (l ++ [.stateChange state])) :
    state.IsDegraded := by
  obtain ⟨_, hs, hd, _⟩ := h
  rw [since_snoc_some (b := state) (by rfl)] at hs
  obtain rfl := Option.some.inj hs
  exact hd

theorem Truthful.of_led (hs : Truthful (l, s)) (he : reported e = none)
    (ht : t.statusLed = some .operational → s.statusLed = some .operational) :
    Truthful (l ++ [e], t) := fun hled hd => hs (ht hled) (hd.of_snoc he)

/-- a step that claims health without looking -/
theorem truthful_claim (he : reported e = none) (hret : ∀ ret, e ≠ .recoverReturns ret)
    (ht : t.statusLed = some .operational) (hc : Claims s e) :
    Truthful (l ++ [e], t) ↔ Quiet (l, s) e :=
  ⟨fun h _ hd => h ht (hd.snoc he hret), fun h _ hd => h hc (hd.of_snoc he)⟩

theorem truthful_quiet {P : Prop} (h : P) (hc : ¬ Claims s e) : P ↔ Quiet (l, s) e :=
  ⟨fun _ hc' => absurd hc' hc, fun _ => h⟩

/-- **one step keeps the LED truthful exactly if it does not claim health of a degraded bus** -/
theorem Truthful.step (hs : Truthful (l, s)) (hstep : s.step e = some t) :
    Truthful (l ++ [e], t) ↔ Quiet (l, s) e := by
  cases e with
  | stateChange state =>
    refine truthful_quiet (fun hled hd => ?_) id
    have hdeg := degraded_report hd
    rw [step_stateChange hstep] at hled
    rcases hdeg with rfl | rfl | rfl
    · exact nomatch Option.some.inj hled
    · exact nomatch Option.some.inj hled
    · exact nomatch Option.some.inj hled
  | workExpires =>
    obtain ⟨_, _, rfl⟩ := step_workExpires hstep
    exact truthful_quiet (hs.of_led rfl id) id
  | recoverCalled =>
    obtain ⟨_, rfl⟩ := step_recoverCalled hstep
    exact truthful_quiet (hs.of_led rfl id) id
  | recoverReturns ret =>
    obtain ⟨_, rfl⟩ := step_recoverReturns hstep
    exact truthful_quiet (hs.of_led rfl id) id
  | handlerEnds =>
    obtain ⟨ret, hp, rfl⟩ := step_handlerEnds hstep
    have hclaims : Claims s .handlerEnds ↔ ret = 0 ∨ ret = -enotsup := by
      show s.handler = _ ∨ s.handler = _ ↔ _
      rw [hp, HandlerPc.returned.injEq, HandlerPc.returned.injEq]
    rcases busOffRecoveryHandler_cases ret with ⟨hret, hcalls⟩ | ⟨hret, hcalls⟩
    · rw [hcalls]
      exact truthful_claim rfl nofun rfl (hclaims.mpr hret)
    · rw [hcalls]
      exact truthful_quiet (hs.of_led rfl id) fun hc => hret (hclaims.mp hc)
  | mainEnds =>
    obtain ⟨_, rfl⟩ := step_mainEnds hstep
    exact truthful_claim rfl nofun rfl True.intro
  | dfuStart =>
    rw [← Option.some.inj hstep]
    exact truthful_quiet (hs.of_led rfl nofun) id
  | dfuEnd =>
    rw [← Option.some.inj hstep]
    exact truthful_claim rfl nofun rfl True.intro

end

/-- **The status LED is truthful in every state a run reaches exactly if the end of `main`, the end
of a DFU and a handler that takes `can_recover` for a success only come while the bus is not
degraded.** -/
theorem truthful_iff_quiet (evs : List BusEv) (s : Bus)
    (hrun : Runs.run Bus.step {} evs = some s) :
    (∀ pre t, pre <+: evs → Runs.run Bus.step {} pre = some t → Truthful (pre, t)) ↔
      Always (recorded Bus.step) Quiet ([], {}) evs := by
  have hrec : Runs.run (recorded Bus.step) ([], {}) evs = some (evs, s) :=
    recorded_run.mpr ⟨hrun, rfl⟩
  have hkept : ∀ p e q, Truthful p → recorded Bus.step p e = some q → (Truthful q ↔ Quiet p e) := by
    rintro ⟨l, s⟩ e ⟨_, t⟩ hs hstep
    obtain ⟨hst, rfl⟩ := recorded_some.mp hstep
    exact hs.step hst
  have hinit : Truthful ([], {}) := nofun
  rw [always_iff_reached hkept hinit hrec]
  constructor
  · rintro hall pre ⟨l, t⟩ hpre hp
    obtain ⟨ht, hl⟩ := recorded_run.mp hp
    obtain rfl : l = pre := hl
    exact hall l t hpre ht
  · intro hall pre t hpre ht
    exact hall pre (pre, t) hpre (recorded_run.mpr ⟨ht, rfl⟩)

/-- a bus-off that is recovered before a DFU -/
def recoveredRun : List BusEv :=
  [.mainEnds, .stateChange .busOff, .workExpires, .recoverCalled, .recoverReturns 0, .handlerEnds,
    .dfuStart, .dfuEnd]

theorem truthful_recoveredRun :
    Always (recorded Bus.step) Quiet ([], {}) recoveredRun ∧
      ∀ pre t, pre <+: recoveredRun → Runs.run Bus.step {} pre = some t → Truthful (pre, t) := by
  have hquiet : Always (recorded Bus.step) Quiet ([], {}) recoveredRun := by decide
  obtain ⟨s, hrun⟩ : ∃ s, Runs.run Bus.step {} recoveredRun = some s := ⟨_, rfl⟩
  exact ⟨hquiet, (truthful_iff_quiet recoveredRun s hrun).mpr hquiet⟩

/-- after these events the LED claims health of a degraded bus -/
def EndsUntruthful (evs : List BusEv) : Prop :=
  ∃ s, Runs.run Bus.step {} evs = some s ∧ ¬ Truthful (evs, s)

/-- each of the three places claims health of a degraded bus: `main` when the driver reported
before it was through, the end of a DFU, and the handler when the driver cannot recover or when a
second bus-off came while `can_recover` was under way -/
theorem not_truthful :
    EndsUntruthful [.stateChange .errorPassive, .mainEnds] ∧
    EndsUntruthful [.mainEnds, .stateChange .errorPassive, .dfuStart, .dfuEnd] ∧
    EndsUntruthful [.mainEnds, .stateChange .busOff, .workExpires, .recoverCalled,
      .recoverReturns (-enotsup), .handlerEnds] ∧
    EndsUntruthful [.mainEnds, .stateChange .busOff, .workExpires, .recoverCalled,
      .stateChange .busOff, .recoverReturns 0, .handlerEnds] := by
  unfold EndsUntruthful Truthful
  decide

end Bus

end CCU
