import Mathlib.Data.List.Basic
import Mathlib.Tactic.Common

/-!
# How long an item waits in a queue

A queue is served `k` items a period, or all that it holds if these are fewer.  Its items have ages,
in periods, the oldest first.

* `Within N k n l`      after the first `n` items of the period, an item of age `a + 1` at the place
                        `i` has left `N - k * a` places before it at most;
* `Served k n owed l`   what has been served and what is owed are a full period, or reach the item;
* `Within.le`           with at most `N + 1` items no item is older than `N / k + 1` periods.
-/

namespace Wait

def Within (N k n : Nat) (l : List Nat) : Prop :=
  ∀ i a, l[i]? = some (a + 1) → i + k * a + min k n ≤ N

def Served (k n owed : Nat) (l : List Nat) : Prop :=
  ∀ i a, l[i]? = some (a + 1) → k ≤ n + owed ∨ i < owed

section
variable {N k n owed : Nat} {l : List Nat}

theorem Within.nil : Within N k n [] := fun _ _ h => by cases h

theorem Served.nil : Served k n owed [] := fun _ _ h => by cases h

/-- an item that is put has no age yet -/
theorem getElem?_put {i a : Nat} (h : (l ++ [0])[i]? = some (a + 1)) : l[i]? = some (a + 1) := by
  by_cases hi : i < l.length
  · rwa [List.getElem?_append_left hi] at h
  · rw [List.getElem?_append_right (Nat.le_of_not_lt hi)] at h
    cases hj : i - l.length with
    | zero => rw [hj] at h; cases h
    | succ j => rw [hj] at h; cases h

theorem Within.put (h : Within N k n l) : Within N k n (l ++ [0]) :=
  fun i a hi => h i a (getElem?_put hi)

theorem Served.put (h : Served k n owed l) : Served k n owed (l ++ [0]) :=
  fun i a hi => h i a (getElem?_put hi)

/-- the first item is served -/
theorem Within.tail {b : Nat} (h : Within N k n (b :: l)) : Within N k (n + 1) l := by
  intro i a hi
  have hb := h (i + 1) a hi
  omega

theorem Served.tail {b : Nat} (h : Served k n owed (b :: l)) : Served k (n + 1) (owed - 1) l := by
  intro i a hi
  have hb := h (i + 1) a hi
  omega

/-- all that is there is owed, up to the `k` of the period -/
theorem Served.owe (k n : Nat) (l : List Nat) : Served k n (min k (n + l.length) - n) l := by
  intro i a hi
  obtain ⟨hlt, _⟩ := List.getElem?_eq_some_iff.mp hi
  omega

/-- a period ends when nothing is owed -/
theorem Within.tick (h : Within N k n l) (hs : Served k n 0 l) (hl : l.length ≤ N + 1) :
    Within N k 0 (l.map (· + 1)) := by
  intro i a hi
  rw [List.getElem?_map, Option.map_eq_some_iff] at hi
  obtain ⟨b, hb, hba⟩ := hi
  obtain rfl : b = a := Nat.succ.inj hba
  obtain ⟨hlt, _⟩ := List.getElem?_eq_some_iff.mp hb
  rw [Nat.min_zero]
  cases b with
  | zero =>
    rw [Nat.mul_zero]
    omega
  | succ c =>
    have hw := h i c hb
    have hk := hs i c hb
    rw [Nat.mul_succ]
    omega

/-- **no item is older than `N / k + 1` periods** -/
theorem Within.le (hk : 0 < k) (h : Within N k n l) : ∀ a ∈ l, a ≤ N / k + 1 := by
  intro a ha
  obtain ⟨i, hi, hia⟩ := List.mem_iff_getElem.mp ha
  cases a with
  | zero => exact Nat.zero_le _
  | succ a =>
    have hw := h i a (List.getElem?_eq_some_iff.mpr ⟨hi, hia⟩)
    refine Nat.succ_le_succ ((Nat.le_div_iff_mul_le hk).mpr ?_)
    rw [Nat.mul_comm]
    omega

end

end Wait
