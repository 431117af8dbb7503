import CanConverter.Lib.Settle
import Mathlib.Logic.Function.Basic

/-!
# The activity LEDs of the CAN bus

A frame sent lights the TX LED and a DFU frame received the RX LED; each then reschedules the work
that puts the LED out after 50 ms.  The test button lights both for two seconds, and the handlers of
the works leave the LEDs alone while `test_active` is set.  Every statement that touches an LED, a
work or `test_active` is a step of its own.

* `Lit.step`         a lit LED has something under way that will put it out;
* `leds_go_out`      left to themselves both LEDs go out;
* `test_lights_iff`  a handler between its check of `test_active` and `gpio_reset` at the press is
                     the one thing that makes the test fail to show an LED.
-/

namespace CCU
open Runs Settle

inductive Activity where
  | rx | tx
deriving DecidableEq

/-- where the handler of an off work is: not running, at `if (!test_active)`, or at `gpio_reset` -/
inductive OffPc where
  | idle | check | reset
deriving DecidableEq

structure Led where
  lit : Bool := false
  /-- between `gpio_set` and `k_work_reschedule` -/
  flashing : Bool := false
  /-- the off work is scheduled or queued; if it is queued and rescheduled, the two are one run -/
  pending : Bool := false
  off : OffPc := .idle
deriving DecidableEq

/-- the next statement of `ccu_can_test_set(true)`, of `ccu_can_test_set(false)`, or neither -/
inductive TestPc where
  | idle | rxOn | txOn | shown | rxOff | txOff
deriving DecidableEq

structure Leds where
  led : Activity → Led := fun _ => {}
  testActive : Bool := false
  test : TestPc := .idle

inductive LedEv where
  | gpioSet (w : Activity)
  | reschedule (w : Activity)
  | expires (w : Activity)
  | readTest (w : Activity)
  | gpioReset (w : Activity)
  | press
  | testNext
deriving DecidableEq

namespace Leds

def set (s : Leds) (w : Activity) (l : Led) : Leds := { s with led := Function.update s.led w l }

/-- `gpio_set` or `gpio_reset` by the test -/
def light (s : Leds) (w : Activity) (lit : Bool) : Leds := s.set w { s.led w with lit := lit }

def step (s : Leds) : LedEv → Option Leds
  | .gpioSet w =>
    if (s.led w).flashing then none
    else some (s.set w { s.led w with lit := true, flashing := true })
  | .reschedule w =>
    if (s.led w).flashing then
      some (s.set w { s.led w with flashing := false, pending := true })
    else none
  | .expires w =>
    if (s.led w).pending ∧ (s.led w).off = .idle then
      some (s.set w { s.led w with pending := false, off := .check })
    else none
  | .readTest w =>
    if (s.led w).off = .check then
      some (s.set w { s.led w with off := if s.testActive then .idle else .reset })
    else none
  | .gpioReset w =>
    if (s.led w).off = .reset then some (s.set w { s.led w with lit := false, off := .idle })
    else none
  | .press =>
    match s.test with
    | .idle => some { s with testActive := true, test := .rxOn }
    | _ => none
  | .testNext =>
    match s.test with
    | .idle => none
    | .rxOn => some { s.light .rx true with test := .txOn }
    | .txOn => some { s.light .tx true with test := .shown }
    | .shown => some { s with testActive := false, test := .rxOff }
    | .rxOff => some { s.light .rx false with test := .txOff }
    | .txOff => some { s.light .tx false with test := .idle }

@[simp] theorem led_set_self (s : Leds) (w : Activity) (l : Led) : (s.set w l).led w = l := by
  show Function.update s.led w l w = l
  rw [Function.update_self]

@[simp] theorem led_set_of_ne (s : Leds) {v w : Activity} (h : v ≠ w) (l : Led) :
    (s.set w l).led v = s.led v := by
  show Function.update s.led w l v = s.led v
  rw [Function.update_of_ne h]

@[simp] theorem test_set (s : Leds) (w : Activity) (l : Led) : (s.set w l).test = s.test := rfl
@[simp] theorem testActive_set (s : Leds) (w : Activity) (l : Led) :
    (s.set w l).testActive = s.testActive := rfl

/-! ## what a step can do -/

/-- what becomes of the LED `w` itself, whoever touches it -/
inductive Touch (active : Bool) (l : Led) : Led → Prop where
  | gpioSet (h : l.flashing = false) : Touch active l { l with lit := true, flashing := true }
  | reschedule (h : l.flashing = true) : Touch active l { l with flashing := false, pending := true }
  | expires (hp : l.pending = true) (ho : l.off = .idle) :
    Touch active l { l with pending := false, off := .check }
  | readTest (h : l.off = .check) : Touch active l { l with off := if active then .idle else .reset }
  | gpioReset (h : l.off = .reset) : Touch active l { l with lit := false, off := .idle }

/-- what the unit does of its own: everything but a frame and a press -/
def Own : LedEv → Prop
  | .gpioSet _ | .press => False
  | .reschedule _ | .expires _ | .readTest _ | .gpioReset _ | .testNext => True

/-- the test makes its next step -/
inductive Next (s : Leds) : Leds → Prop where
  | rxOn (h : s.test = .rxOn) : Next s { s.light .rx true with test := .txOn }
  | txOn (h : s.test = .txOn) : Next s { s.light .tx true with test := .shown }
  | shown (h : s.test = .shown) : Next s { s with testActive := false, test := .rxOff }
  | rxOff (h : s.test = .rxOff) : Next s { s.light .rx false with test := .txOff }
  | txOff (h : s.test = .txOff) : Next s { s.light .tx false with test := .idle }

section
variable {s t : Leds} {e : LedEv} {w : Activity}

theorem step_testNext (h : s.step .testNext = some t) : Next s t := by
  simp only [step] at h
  split at h
  · cases h
  · rename_i ht
    exact Option.some.inj h ▸ .rxOn ht
  · rename_i ht
    exact Option.some.inj h ▸ .txOn ht
  · rename_i ht
    exact Option.some.inj h ▸ .shown ht
  · rename_i ht
    exact Option.some.inj h ▸ .rxOff ht
  · rename_i ht
    exact Option.some.inj h ▸ .txOff ht

theorem step_press (h : s.step .press = some t) :
    s.test = .idle ∧ t = { s with testActive := true, test := .rxOn } := by
  simp only [step] at h
  split at h
  · rename_i ht
    exact ⟨ht, (Option.some.inj h).symm⟩
  · cases h

/-- **a step touches one LED, or is the press, or the next statement of the test** -/
theorem step_cases (h : s.step e = some t) :
    (∃ w l, Touch s.testActive (s.led w) l ∧ t = s.set w l ∧
        (Own e → l.flashing = true → (s.led w).flashing = true)) ∨
      (e = .press ∧ s.test = .idle ∧ t = { s with testActive := true, test := .rxOn }) ∨
      (e = .testNext ∧ Next s t) := by
  cases e with
  | gpioSet w =>
    simp only [step] at h
    split at h
    · cases h
    · rename_i hf
      exact .inl ⟨w, _, .gpioSet (Bool.not_eq_true _ ▸ hf), (Option.some.inj h).symm,
        fun hI => hI.elim⟩
  | reschedule w =>
    simp only [step] at h
    split at h
    · rename_i hf
      exact .inl ⟨w, _, .reschedule hf, (Option.some.inj h).symm, fun _ _ => hf⟩
    · cases h
  | expires w =>
    simp only [step] at h
    split at h
    · rename_i hp
      exact .inl ⟨w, _, .expires hp.1 hp.2, (Option.some.inj h).symm, fun _ => id⟩
    · cases h
  | readTest w =>
    simp only [step] at h
    split at h
    · rename_i ho
      exact .inl ⟨w, _, .readTest ho, (Option.some.inj h).symm, fun _ => id⟩
    · cases h
  | gpioReset w =>
    simp only [step] at h
    split at h
    · rename_i ho
      exact .inl ⟨w, _, .gpioReset ho, (Option.some.inj h).symm, fun _ => id⟩
    · cases h
  | press => exact .inr (.inl ⟨rfl, step_press h⟩)
  | testNext => exact .inr (.inr ⟨rfl, step_testNext h⟩)

/-! ## what will put an LED out -/

/-- the test has yet to put the LED out -/
def covers : TestPc → Activity → Prop
  | .idle, _ => False
  | .rxOn, _ | .txOn, _ | .shown, _ | .rxOff, _ => True
  | .txOff, w => w = .tx

/-- something under way will put the LED out -/
def Ending (s : Leds) (w : Activity) : Prop :=
  (s.led w).flashing = true ∨ (s.led w).pending = true ∨ (s.led w).off = .reset ∨
    ((s.led w).off = .check ∧ s.testActive = false) ∨ covers s.test w

/-- `test_active` is set from the first statement of the test to its last but two -/
def Active : TestPc → Prop
  | .rxOn | .txOn | .shown => True
  | .idle | .rxOff | .txOff => False

structure Ok (s : Leds) : Prop where
  active : s.testActive = true ↔ Active s.test
  lit : ∀ w, (s.led w).lit = true → Ending s w

theorem Ok.init : Ok {} := ⟨by simp [Active], fun _ h => by cases h⟩

theorem Active.covers {pc : TestPc} (h : Active pc) (w : Activity) : covers pc w := by
  cases pc with
  | rxOn | txOn | shown => exact True.intro
  | idle | rxOff | txOff => exact h.elim

/-- the LED that a step touches is still lit only if it goes out later -/
theorem Ok.touch {l : Led} (hs : Ok s) (h : Touch s.testActive (s.led w) l) : Ok (s.set w l) := by
  refine ⟨hs.active, fun v hv => ?_⟩
  by_cases hvw : v = w
  · subst hvw
    rw [led_set_self] at hv
    unfold Ending
    rw [led_set_self, test_set, testActive_set]
    cases h with
    | gpioSet hf => exact .inl rfl
    | reschedule hf => exact .inr (.inl rfl)
    | expires hp ho =>
      cases ha : s.testActive with
      | false => exact .inr (.inr (.inr (.inl ⟨rfl, rfl⟩)))
      | true => exact .inr (.inr (.inr (.inr ((hs.active.mp ha).covers v))))
    | readTest ho =>
      cases ha : s.testActive with
      | false => exact .inr (.inr (.inl (by rw [if_neg Bool.false_ne_true])))
      | true => exact .inr (.inr (.inr (.inr ((hs.active.mp ha).covers v))))
    | gpioReset ho => cases hv
  · have hold : Ending s v := hs.lit v (by rwa [led_set_of_ne s hvw] at hv)
    unfold Ending
    rw [led_set_of_ne s hvw]
    exact hold

theorem ok_press (s : Leds) : Ok { s with testActive := true, test := .rxOn } :=
  ⟨by simp [Active], fun _ _ => .inr (.inr (.inr (.inr True.intro)))⟩

/-- a statement of the test that covers both LEDs -/
theorem ok_of_covers (ha : s.testActive = true ↔ Active s.test) (hc : ∀ w, covers s.test w) :
    Ok s := ⟨ha, fun w _ => .inr (.inr (.inr (.inr (hc w))))⟩

theorem Ok.next (hs : Ok s) (h : Next s t) : Ok t := by
  have hact := hs.active
  cases h with
  | rxOn ht =>
    rw [ht] at hact
    exact ok_of_covers hact fun _ => True.intro
  | txOn ht =>
    rw [ht] at hact
    exact ok_of_covers hact fun _ => True.intro
  | shown ht => exact ok_of_covers (by simp [Active]) fun _ => True.intro
  | rxOff ht =>
    rw [ht] at hact
    refine ⟨hact, fun w hw => ?_⟩
    cases w with
    | tx => exact .inr (.inr (.inr (.inr rfl)))
    | rx =>
      have hdark : ((s.light .rx false).led .rx).lit = false := by
        unfold light
        rw [led_set_self]
      rw [hdark] at hw
      cases hw
  | txOff ht =>
    rw [ht] at hact
    refine ⟨hact, fun w hw => ?_⟩
    cases w with
    | tx =>
      have hdark : ((s.light .tx false).led .tx).lit = false := by
        unfold light
        rw [led_set_self]
      rw [hdark] at hw
      cases hw
    | rx =>
      have hsame : (s.light .tx false).led .rx = s.led .rx := led_set_of_ne s (by decide) _
      rw [hsame] at hw
      have hold := hs.lit .rx hw
      unfold Ending at hold ⊢
      rw [ht] at hold
      rw [hsame]
      rcases hold with hold | hold | hold | hold | hold
      · exact .inl hold
      · exact .inr (.inl hold)
      · exact .inr (.inr (.inl hold))
      · exact .inr (.inr (.inr (.inl hold)))
      · cases hold

/-- **every step keeps what will put a lit LED out** -/
theorem Ok.step (hs : Ok s) (h : s.step e = some t) : Ok t := by
  obtain ⟨w, l, htouch, rfl, _⟩ | ⟨_, _, rfl⟩ | ⟨_, hnext⟩ := step_cases h
  · exact hs.touch htouch
  · exact ok_press s
  · exact hs.next hnext

theorem Ok.run {l : List LedEv} (h : run Leds.step {} l = some s) : Ok s :=
  inv_run (fun _ _ _ hs ht => hs.step ht) Ok.init h

/-! ## the LEDs go out -/

def offWork : OffPc → Nat
  | .idle => 0
  | .check => 2
  | .reset => 1

def ledWork (l : Led) : Nat :=
  (if l.flashing then 4 else 0) + (if l.pending then 3 else 0) + offWork l.off

def testWork : TestPc → Nat
  | .idle => 0
  | .rxOn => 5
  | .txOn => 4
  | .shown => 3
  | .rxOff => 2
  | .txOff => 1

/-- a bound on the steps until both LEDs are out -/
def work (s : Leds) : Nat := ledWork (s.led .rx) + ledWork (s.led .tx) + testWork s.test

theorem work_set (s : Leds) (w : Activity) (l : Led) (h : ledWork l < ledWork (s.led w)) :
    (s.set w l).work < s.work := by
  unfold work
  cases w with
  | rx =>
    rw [led_set_self, led_set_of_ne s (by decide), test_set]
    omega
  | tx =>
    rw [led_set_self, led_set_of_ne s (by decide), test_set]
    omega

/-- the test lights an LED or puts it out without touching its works -/
theorem work_light (s : Leds) (w : Activity) (lit : Bool) : (s.light w lit).work = s.work := by
  unfold work light
  cases w with
  | rx =>
    rw [led_set_self, led_set_of_ne s (by decide), test_set]
    rfl
  | tx =>
    rw [led_set_self, led_set_of_ne s (by decide), test_set]
    rfl

theorem Touch.work {active : Bool} {l l' : Led} (h : Touch active l l') (hf : l'.flashing = true →
    l.flashing = true) : ledWork l' < ledWork l := by
  unfold ledWork
  cases h with
  | gpioSet h0 =>
    rw [hf rfl] at h0
    cases h0
  | reschedule h =>
    rw [h]
    simp only [if_true, if_false, Bool.false_eq_true]
    split <;> omega
  | expires hp ho =>
    rw [hp, ho]
    simp only [if_true, if_false, Bool.false_eq_true, offWork]
    omega
  | readTest h =>
    rw [h]
    cases active <;> simp [offWork]
  | gpioReset h =>
    rw [h]
    simp only [offWork]
    omega

theorem work_step (hI : Own e) (h : s.step e = some t) : t.work < s.work := by
  obtain ⟨w, l, htouch, rfl, hf⟩ | ⟨rfl, _, _⟩ | ⟨_, hnext⟩ := step_cases h
  · exact work_set s w l (htouch.work (hf hI))
  · exact hI.elim
  · have hlight : ∀ w lit (pc : TestPc), testWork pc < testWork s.test →
        ({ s.light w lit with test := pc } : Leds).work < s.work := by
      intro w lit pc hpc
      have hw := work_light s w lit
      unfold work at hw ⊢
      have ht : (s.light w lit).test = s.test := rfl
      rw [ht] at hw
      simp only
      omega
    cases hnext with
    | rxOn ht => exact hlight .rx true .txOn (by rw [ht]; decide)
    | txOn ht => exact hlight .tx true .shown (by rw [ht]; decide)
    | shown ht =>
      unfold work
      rw [ht]
      exact Nat.add_lt_add_left (show 2 < 3 by decide) _
    | rxOff ht => exact hlight .rx false .txOff (by rw [ht]; decide)
    | txOff ht => exact hlight .tx false .idle (by rw [ht]; decide)

/-- **at a stop no LED is lit** -/
theorem Ok.dark (hs : Ok s) (h : Stopped Leds.step Own s) (w : Activity) :
    (s.led w).lit = false := by
  have htest : s.test = .idle := by
    have hnone := h .testNext True.intro
    cases ht : s.test with
    | idle => rfl
    | _ =>
      simp only [Leds.step, ht] at hnone
      cases hnone
  have hactive : s.testActive = false := by
    cases ha : s.testActive with
    | false => rfl
    | true =>
      have hact := hs.active.mp ha
      rw [htest] at hact
      exact hact.elim
  by_contra hlit
  have hoff : (s.led w).off = .idle := by
    cases ho : (s.led w).off with
    | idle => rfl
    | check =>
      have hnone := h (.readTest w) True.intro
      simp only [Leds.step, ho, if_true] at hnone
      cases hnone
    | reset =>
      have hnone := h (.gpioReset w) True.intro
      simp only [Leds.step, ho, if_true] at hnone
      cases hnone
  rcases hs.lit w (Bool.not_eq_false _ ▸ hlit) with hf | hp | ho | ho | hc
  · have hnone := h (.reschedule w) True.intro
    simp only [Leds.step, hf, if_true] at hnone
    cases hnone
  · have hnone := h (.expires w) True.intro
    simp only [Leds.step, hp, hoff, and_self, if_true] at hnone
    cases hnone
  · rw [hoff] at ho
    cases ho
  · rw [hoff] at ho
    cases ho.1
  · rw [htest] at hc
    exact hc

/-- **No activity LED stays lit**: after any run, in which frames and presses came at any point, the
unit left to itself makes no more than `work` steps, and when it stops both LEDs are out. -/
theorem leds_go_out {l : List LedEv} (h : Runs.run Leds.step {} l = some s) {own : List LedEv}
    (hown : Settle.Run Leds.step Own s own t) :
    own.length ≤ s.work ∧ (Stopped Leds.step Own t → ∀ w, (t.led w).lit = false) ∧
      ∃ rest u, Settle.Run Leds.step Own t rest u ∧ ∀ w, (u.led w).lit = false := by
  have hdec : ∀ s e t, Own e → Leds.step s e = some t → t.work < s.work :=
    fun _ _ _ hI hs => work_step hI hs
  have hok : ∀ {s t : Leds} {l : List LedEv}, Ok s → Runs.run Leds.step s l = some t → Ok t :=
    fun hs hl => inv_run (fun _ _ _ hs ht => Ok.step hs ht) hs hl
  have ht : Ok t := hok (Ok.run h) hown.run
  have hlen := hown.length hdec
  obtain ⟨rest, u, hrest, hu⟩ := stops hdec t
  exact ⟨by omega, ht.dark, rest, u, hrest, (hok ht hrest.run).dark hu⟩

/-- a press while the TX LED flashes; the work expires during the test -/
def flashThenTest : List LedEv :=
  [.gpioSet .tx, .reschedule .tx, .press, .testNext, .expires .tx, .testNext]

theorem leds_go_out_flashThenTest :
    ∃ s t, Runs.run Leds.step {} flashThenTest = some s ∧
      Settle.Run Leds.step Own s [.readTest .tx, .testNext] t ∧ (t.led .tx).lit = true ∧
      [LedEv.readTest .tx, .testNext].length ≤ s.work ∧
      (Stopped Leds.step Own t → ∀ w, (t.led w).lit = false) ∧
      ∃ rest u, Settle.Run Leds.step Own t rest u ∧ ∀ w, (u.led w).lit = false :=
  have hown : ∀ e ∈ [LedEv.readTest .tx, .testNext], Own e := by simp [Own]
  ⟨_, _, rfl, ⟨hown, rfl⟩, rfl, leds_go_out (l := flashThenTest) rfl ⟨hown, rfl⟩⟩

/-! ## the test -/

/-- the test goes on: `ccu_can_test_set(false)` is not called -/
def GoesOn (s : Leds) (e : LedEv) : Prop := s.test = .shown → e ≠ .testNext

/-- the test has lit the LED -/
def lights : TestPc → Activity → Prop
  | .shown, _ => True
  | .txOn, w => w = .rx
  | _, _ => False

/-- the test is on, no handler is about to put the LED out, and it is lit once the test has lit it -/
structure Lighting (w : Activity) (s : Leds) : Prop where
  active : s.testActive = true
  test : Active s.test
  off : (s.led w).off ≠ .reset
  lit : lights s.test w → (s.led w).lit = true

theorem Lighting.touch {v : Activity} {l : Led} (hs : Lighting w s)
    (h : Touch s.testActive (s.led v) l) : Lighting w (s.set v l) := by
  obtain ⟨h1, h2, h3, h4⟩ := hs
  by_cases hvw : w = v
  · subst hvw
    refine ⟨h1, h2, ?_, ?_⟩
    · rw [led_set_self]
      rw [h1] at h
      cases h with
      | gpioSet _ => exact h3
      | reschedule _ => exact h3
      | expires _ _ => simp
      | readTest _ => simp
      | gpioReset ho => exact absurd ho h3
    · intro hl
      rw [led_set_self]
      cases h with
      | gpioSet _ => rfl
      | reschedule _ => exact h4 hl
      | expires _ _ => exact h4 hl
      | readTest _ => exact h4 hl
      | gpioReset ho => exact absurd ho h3
  · refine ⟨h1, h2, ?_, ?_⟩
    · rw [led_set_of_ne s hvw]
      exact h3
    · rw [led_set_of_ne s hvw]
      exact h4

/-- the test lights the LED `v` -/
theorem Lighting.light {v : Activity} (hs : Lighting w s) (pc : TestPc) (hpc : Active pc)
    (hl : lights pc w → w = v ∨ lights s.test w) :
    Lighting w { s.light v true with test := pc } := by
  obtain ⟨h1, h2, h3, h4⟩ := hs
  by_cases hvw : w = v
  · subst hvw
    have hled : (s.light w true).led w = { s.led w with lit := true } := led_set_self s w _
    refine ⟨h1, hpc, ?_, fun _ => ?_⟩
    · show ((s.light w true).led w).off ≠ .reset
      rw [hled]
      exact h3
    · show ((s.light w true).led w).lit = true
      rw [hled]
  · have hled : (s.light v true).led w = s.led w := led_set_of_ne s hvw _
    refine ⟨h1, hpc, ?_, fun hpcl => ?_⟩
    · show ((s.light v true).led w).off ≠ .reset
      rw [hled]
      exact h3
    · show ((s.light v true).led w).lit = true
      rw [hled]
      exact h4 ((hl hpcl).resolve_left hvw)

theorem Lighting.step (hs : Lighting w s) (hG : GoesOn s e) (h : s.step e = some t) :
    Lighting w t := by
  obtain ⟨v, l, htouch, rfl, _⟩ | ⟨_, hidle, _⟩ | ⟨rfl, hnext⟩ := step_cases h
  · exact hs.touch htouch
  · have hact := hs.test
    rw [hidle] at hact
    exact hact.elim
  · cases hnext with
    | rxOn ht => exact hs.light .txOn True.intro .inl
    | txOn ht =>
      refine hs.light .shown True.intro fun _ => ?_
      rw [ht]
      cases w with
      | rx => exact .inr rfl
      | tx => exact .inl rfl
    | shown ht => exact absurd rfl (hG ht)
    | rxOff ht =>
      have hact := hs.test
      rw [ht] at hact
      exact hact.elim
    | txOff ht =>
      have hact := hs.test
      rw [ht] at hact
      exact hact.elim

/-- the LED is lit at every moment of the test that a press in `s` begins -/
def ShowsTest (s : Leds) (w : Activity) : Prop :=
  ∀ t l u, s.step .press = some t → Always Leds.step GoesOn t l → Runs.run Leds.step t l = some u →
    u.test = .shown → (u.led w).lit = true

/-- the test does not touch the handlers -/
theorem off_light (s : Leds) (v w : Activity) (lit : Bool) :
    ((s.light v lit).led w).off = (s.led w).off := by
  unfold light
  by_cases hvw : w = v
  · subst hvw
    rw [led_set_self]
  · rw [led_set_of_ne s hvw]

/-- the handler that has found `test_active` unset puts the LED out during the test -/
theorem dark_in_test (ht : s.test = .idle) (hoff : (s.led w).off = .reset) : ¬ ShowsTest s w := by
  intro hshow
  have hpress : s.step .press = some { s with testActive := true, test := .rxOn } := by
    simp only [Leds.step, ht]
  let s₁ : Leds := { s with testActive := true, test := .rxOn }
  let s₂ : Leds := { s₁.light .rx true with test := .txOn }
  have hreset : ((s₂.light .tx true).led w).off = .reset := by
    rw [off_light]
    exact (off_light s₁ .rx w true).trans hoff
  have hrun := hshow _ [.testNext, .testNext, .gpioReset w] _ hpress ?_
    (run_cons_some.mpr ⟨_, rfl, run_cons_some.mpr ⟨_, rfl, run_cons_some.mpr
      ⟨_, if_pos hreset, run_nil _⟩⟩⟩) rfl
  · rw [led_set_self] at hrun
    cases hrun
  · refine ⟨(by rintro ⟨⟩), fun a ha => ⟨?_, fun b hb => ⟨(by rintro _ ⟨⟩), fun _ _ => True.intro⟩⟩⟩
    obtain rfl := Option.some.inj ha
    rintro ⟨⟩

/-- **The test shows an LED exactly if no handler is between its check of `test_active` and
`gpio_reset` when the button is pressed.** -/
theorem test_lights_iff (ht : s.test = .idle) (w : Activity) : ShowsTest s w ↔ (s.led w).off ≠ .reset := by
  constructor
  · intro hshow hoff
    exact dark_in_test ht hoff hshow
  · intro hoff t l u hpress hG hrun hu
    obtain ⟨_, rfl⟩ := step_press hpress
    have hinit : Lighting w { s with testActive := true, test := .rxOn } :=
      ⟨rfl, True.intro, hoff, fun hl => hl.elim⟩
    have hend : Lighting w u :=
      inv_run_of (fun _ _ _ hs hG hst => Lighting.step hs hG hst) hinit hG hrun
    exact hend.lit (by rw [hu]; exact True.intro)

/-- a press while the work of the TX LED is scheduled: both LEDs stay lit -/
theorem test_lights_iff_pending :
    ShowsTest { led := fun _ => { lit := true, pending := true } } .tx ↔
      (({ led := fun _ => { lit := true, pending := true } } : Leds).led .tx).off ≠ .reset :=
  test_lights_iff rfl .tx

end

end Leds

end CCU
