import CanConverter.Periodic.Loop

/-!
# The broadcast schedule in closed form

The periodic thread runs for ever; `dfu t` says whether DFU was active at wakeup `t`, `d t` is the
snapshot a wakeup takes.  Two numbers of the history determine the counters: `inactiveRun dfu t`,
the length of the run of DFU-inactive wakeups that ends before wakeup `t`, and
`inactiveTotal dfu t`, the number of DFU-inactive wakeups before `t`.

* `counters_eq`            the four counters in terms of these two numbers;
* `broadcast_schedule`     what every wakeup attempts, and the bounds of the counters.
-/

namespace CCU

section
variable (dfu : ℕ → Bool) (d : ℕ → MasterData)

/-- the counters at the start of wakeup `t` -/
def counters : ℕ → Counters
  | 0 => {}
  | t + 1 => (wakeup (dfu t) (d t) (counters t)).cnt

/-- wakeup `t` -/
def pass (t : ℕ) : Body := wakeup (dfu t) (d t) (counters dfu d t)

/-- the consecutive DFU-inactive wakeups that end just before wakeup `t` -/
def inactiveRun : ℕ → ℕ
  | 0 => 0
  | t + 1 => if dfu t then 0 else inactiveRun t + 1

/-- all DFU-inactive wakeups before wakeup `t` -/
def inactiveTotal : ℕ → ℕ
  | 0 => 0
  | t + 1 => if dfu t then inactiveTotal t else inactiveTotal t + 1

theorem inactiveRun_succ (t : ℕ) :
    inactiveRun dfu (t + 1) = if dfu t then 0 else inactiveRun dfu t + 1 := rfl
theorem inactiveTotal_succ (t : ℕ) :
    inactiveTotal dfu (t + 1) = if dfu t then inactiveTotal dfu t else inactiveTotal dfu t + 1 :=
  rfl

/-- the counters after a history with `r` and `a` inactive wakeups -/
def countersOf (r a : ℕ) : Counters where
  cnt100ms := r % 10
  cnt1000ms := r % 100
  cnt1s := a % 100
  cntUnassign := a / 100 % 10

theorem countersOf_ok (r a : ℕ) : (countersOf r a).Ok := by
  have h10 : 0 < 10 := Nat.zero_lt_succ 9
  have h100 : 0 < 100 := Nat.zero_lt_succ 99
  exact ⟨Nat.mod_lt _ h10, Nat.mod_lt _ h100, Nat.mod_lt _ h100, Nat.mod_lt _ h10⟩

theorem countersOf_next (r a : ℕ) : (countersOf r a).next = countersOf (r + 1) (a + 1) := by
  have h10 : 0 < 10 := Nat.zero_lt_succ 9
  have h100 : 0 < 100 := Nat.zero_lt_succ 99
  unfold Counters.next countersOf
  simp only [roll_mod h10, roll_mod h100]
  congr 1
  rw [← roll_mod h10]
  exact roll_cascade h100 h10 a

theorem countersOf_dfu (r a : ℕ) : (countersOf r a).dfu = countersOf 0 a := rfl

theorem wakeup_is (b : Bool) (m : MasterData) {c : Counters} (hc : c.Ok) :
    (wakeup b m c).Is (if b then c.dfu else c.next) (if b then [] else loopActs m c) := by
  unfold wakeup
  cases b
  · exact loopBody_is m hc
  · exact dfuBody_is hc

/-- **the counters are a function of the two numbers** -/
theorem counters_eq (t : ℕ) :
    counters dfu d t = countersOf (inactiveRun dfu t) (inactiveTotal dfu t) := by
  induction t with
  | zero =>
    show ({} : Counters) = countersOf 0 0
    decide
  | succ t ih =>
    have h := (wakeup_is (dfu t) (d t) (countersOf_ok (inactiveRun dfu t)
      (inactiveTotal dfu t))).cnt
    show (wakeup (dfu t) (d t) (counters dfu d t)).cnt = _
    rw [ih, h, inactiveRun_succ, inactiveTotal_succ]
    cases dfu t
    · exact countersOf_next _ _
    · exact countersOf_dfu _ _

theorem pass_is (t : ℕ) :
    (pass dfu d t).Is
      (if dfu t then (counters dfu d t).dfu else (counters dfu d t).next)
      (if dfu t then [] else loopActs (d t) (counters dfu d t)) := by
  unfold pass
  rw [counters_eq]
  exact wakeup_is _ _ (countersOf_ok _ _)

/-- the actions of an inactive wakeup in terms of the two numbers, this wakeup counted -/
theorem loopActs_countersOf (m : MasterData) (r a : ℕ) :
    loopActs m (countersOf r a) =
      sends (group100Hz m) ++
      (if 10 ∣ r + 1 then sends (group10Hz m) else []) ++
      (if 100 ∣ r + 1 then sends (group1Hz m) else []) ++
      (if 100 ∣ a + 1 then
        (if 1000 ∣ a + 1 then sends (groupUnassigned m) else []) ++ statsReport else []) := by
  have h10 : 0 < 10 := Nat.zero_lt_succ 9
  have h100 : 0 < 100 := Nat.zero_lt_succ 99
  unfold loopActs countersOf
  simp only [mod_succ_eq_iff h10, mod_succ_eq_iff h100]
  congr 1
  by_cases h : 100 ∣ a + 1
  · have hu := cascade_eq_iff h100 h10 a h
    rw [mod_succ_eq_iff h10] at hu
    rw [if_pos h, if_pos h]
    simp only [hu]
  · rw [if_neg h, if_neg h]

/-- **The broadcast schedule in closed form.**  At a DFU-active wakeup nothing is attempted.  At an
inactive one, with `r` and `a` counted up to and including this wakeup, the groups are attempted at
the multiples given; the counters are a function of the history and stay within their bounds at
every moment of the wakeup. -/
theorem broadcast_schedule (t : ℕ) :
    (dfu t = true → (pass dfu d t).acts = []) ∧
    (dfu t = false → (pass dfu d t).acts =
      sends (group100Hz (d t)) ++
      (if 10 ∣ inactiveRun dfu (t + 1) then sends (group10Hz (d t)) else []) ++
      (if 100 ∣ inactiveRun dfu (t + 1) then sends (group1Hz (d t)) else []) ++
      (if 100 ∣ inactiveTotal dfu (t + 1) then
        (if 1000 ∣ inactiveTotal dfu (t + 1) then sends (groupUnassigned (d t)) else [])
          ++ statsReport
       else [])) ∧
    (100 ∣ inactiveRun dfu (t + 1) → 10 ∣ inactiveRun dfu (t + 1)) ∧
    counters dfu d t = countersOf (inactiveRun dfu t) (inactiveTotal dfu t) ∧
    (∀ c ∈ counters dfu d t :: (pass dfu d t).seen, c.Within) := by
  have h := pass_is dfu d t
  refine ⟨?_, ?_, ?_, counters_eq dfu d t, ?_⟩
  · intro hd
    rw [h.acts, hd]
    rfl
  · intro hd
    have hr : inactiveRun dfu (t + 1) = inactiveRun dfu t + 1 := by
      rw [inactiveRun_succ, hd]
      rfl
    have ha : inactiveTotal dfu (t + 1) = inactiveTotal dfu t + 1 := by
      rw [inactiveTotal_succ, hd]
      rfl
    rw [hr, ha, ← loopActs_countersOf, ← counters_eq dfu d t, h.acts, hd]
    rfl
  · intro hd
    have h10 : 10 ∣ 100 := Nat.dvd_mul_right 10 10
    exact Nat.dvd_trans h10 hd
  · intro c hc
    rcases List.mem_cons.mp hc with hc | hc
    · have ho := countersOf_ok (inactiveRun dfu t) (inactiveTotal dfu t)
      rw [hc, counters_eq]
      exact ⟨ho.cnt100ms.le, ho.cnt1000ms.le, ho.cnt1s.le, ho.cntUnassign.le⟩
    · exact h.seen c hc

end

end CCU
