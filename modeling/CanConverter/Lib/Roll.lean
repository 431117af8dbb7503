import Mathlib.Tactic.Common

/-!
# Rolling counters

`roll n` counts up to `n` and starts over.  Started at zero and rolled `k` times, a counter shows
`k % n` (`roll_mod`); a second counter that is rolled whenever the first one starts over shows
`k / n % m` (`roll_cascade`).
-/

/-- a counter that starts over when it reaches `n` -/
def roll (n k : Nat) : Nat := if k + 1 = n then 0 else k + 1

theorem roll_lt {n k : Nat} (h : k < n) : roll n k < n := by
  unfold roll
  split <;> omega

/-- the same with the test `≥`, made after the increment -/
theorem roll_of_ge {n k : Nat} (h : k < n) : (if k + 1 ≥ n then 0 else k + 1) = roll n k := by
  unfold roll
  split <;> split <;> omega

/-- the counter starts over exactly at the multiples of `n` -/
theorem mod_succ_eq_iff {n : Nat} (hn : 0 < n) (k : Nat) : k % n + 1 = n ↔ n ∣ k + 1 := by
  obtain ⟨m, rfl⟩ := Nat.exists_eq_succ_of_ne_zero (Nat.pos_iff_ne_zero.mp hn)
  rw [Nat.dvd_iff_mod_eq_zero, Nat.succ_mod_succ_eq_zero_iff, Nat.succ_eq_add_one,
    Nat.add_right_cancel_iff]

theorem roll_mod {n : Nat} (hn : 0 < n) (k : Nat) : roll n (k % n) = (k + 1) % n := by
  have hlt := Nat.mod_lt k hn
  have e : n * (k / n) + k % n = k := Nat.div_add_mod k n
  unfold roll
  split
  · rename_i h
    exact (Nat.mod_eq_zero_of_dvd ((mod_succ_eq_iff hn k).mp h)).symm
  · have e' : n * (k / n) + (k % n + 1) = k + 1 := by rw [← Nat.add_assoc, e]
    rw [← e', Nat.mul_add_mod, Nat.mod_eq_of_lt (show k % n + 1 < n by omega)]

/-- a counter rolled whenever another one starts over -/
theorem roll_cascade {n m : Nat} (hn : 0 < n) (hm : 0 < m) (k : Nat) :
    (if k % n + 1 = n then roll m (k / n % m) else k / n % m) = (k + 1) / n % m := by
  rw [Nat.succ_div]
  by_cases h : k % n + 1 = n
  · rw [if_pos h, if_pos ((mod_succ_eq_iff hn k).mp h), roll_mod hm]
  · rw [if_neg h, if_neg (fun hd => h ((mod_succ_eq_iff hn k).mpr hd)), Nat.add_zero]

/-- the second counter starts over exactly at the multiples of `n * m` -/
theorem cascade_eq_iff {n m : Nat} (hn : 0 < n) (hm : 0 < m) (k : Nat) (h : n ∣ k + 1) :
    k / n % m + 1 = m ↔ n * m ∣ k + 1 := by
  obtain ⟨q, hq⟩ := h
  have hd : k / n + 1 = q := by
    have e : (k + 1) / n = k / n + 1 := Nat.succ_div_of_dvd ⟨q, hq⟩
    rw [← e, hq, Nat.mul_div_cancel_left q hn]
  rw [mod_succ_eq_iff hm, hd, hq, Nat.mul_dvd_mul_iff_left hn]
