import Mathlib.Data.List.Basic
import Mathlib.Algebra.Order.Ring.Nat
import Mathlib.Tactic.Common

/-!
# Stretches of a list, cut into blocks

A list is cut at every `sep` into stretches without `sep`, and each stretch from its start on into
blocks of `n`; what is left of a stretch is shorter than a block.

* `full n sep l`        the number of full blocks;
* `fullFrom n sep c l`  the same when `c` elements of the first stretch stand before `l`;
* `full_le`             there are no more than in one stretch of the same length.
-/

namespace Chop
variable {α : Type*}

/-- the number of full blocks in the stretches -/
def blocks (n : Nat) (stretches : List (List α)) : Nat := (stretches.map fun r => r.length / n).sum

theorem blocks_cons (n : Nat) (r : List α) (rs : List (List α)) :
    blocks n (r :: rs) = r.length / n + blocks n rs := by
  simp [blocks]

variable [DecidableEq α]

def full (n : Nat) (sep : α) (l : List α) : Nat := blocks n (l.splitOn sep)

/-- `c` elements of the first stretch stand before `l` -/
def fullFrom (n : Nat) (sep : α) (c : Nat) (l : List α) : Nat :=
  match l.splitOn sep with
  | [] => c / n
  | r :: rs => (c + r.length) / n + blocks n rs

section
variable {n c : Nat} {sep a : α} {l : List α}

theorem fullFrom_zero : fullFrom n sep 0 l = full n sep l := by
  unfold fullFrom full
  cases h : l.splitOn sep with
  | nil => exact absurd h (List.splitOn_ne_nil sep l)
  | cons r rs =>
    rw [blocks_cons]
    simp

theorem fullFrom_nil : fullFrom n sep c [] = c / n := by
  simp [fullFrom, blocks]

theorem fullFrom_sep : fullFrom n sep c (sep :: l) = c / n + full n sep l := by
  unfold fullFrom full
  rw [List.splitOn_cons_eq_if_modifyHead]
  simp

theorem fullFrom_cons (h : a ≠ sep) : fullFrom n sep c (a :: l) = fullFrom n sep (c + 1) l := by
  unfold fullFrom
  rw [List.splitOn_cons_eq_if_modifyHead, if_neg (by simpa using h)]
  cases hl : l.splitOn sep with
  | nil => exact absurd hl (List.splitOn_ne_nil sep l)
  | cons r rs =>
    simp only [List.modifyHead_cons, List.length_cons]
    rw [Nat.add_right_comm, Nat.add_assoc]

/-- a full block at the start of the stretch -/
theorem fullFrom_block (hn : 0 < n) : fullFrom n sep n l = 1 + full n sep l := by
  unfold fullFrom full
  cases hl : l.splitOn sep with
  | nil => exact absurd hl (List.splitOn_ne_nil sep l)
  | cons r rs =>
    show (n + r.length) / n + blocks n rs = _
    rw [blocks_cons, Nat.add_div_left _ hn]
    omega

theorem fullFrom_le (n : Nat) (sep : α) (c : Nat) (l : List α) :
    fullFrom n sep c l ≤ (c + l.length) / n := by
  induction l generalizing c with
  | nil => exact Nat.le_of_eq fullFrom_nil
  | cons a l ih =>
    by_cases h : a = sep
    · subst h
      have hrest := ih 0
      rw [fullFrom_zero, Nat.zero_add] at hrest
      calc fullFrom n a c (a :: l) = c / n + full n a l := fullFrom_sep
        _ ≤ c / n + l.length / n := Nat.add_le_add_left hrest _
        _ ≤ (c + l.length) / n := Nat.div_add_div_le_add_div
        _ ≤ (c + (a :: l).length) / n := Nat.div_le_div_right (by simp)
    · rw [fullFrom_cons h]
      refine Nat.le_trans (ih (c + 1)) (Nat.le_of_eq ?_)
      rw [List.length_cons, Nat.add_right_comm, Nat.add_assoc]

/-- cutting at separators makes no more full blocks -/
theorem full_le (n : Nat) (sep : α) (l : List α) : full n sep l ≤ l.length / n := by
  have h := fullFrom_le n sep 0 l
  rwa [fullFrom_zero, Nat.zero_add] at h

theorem full_of_not_mem (h : sep ∉ l) : full n sep l = l.length / n := by
  unfold full
  rw [List.splitOn_eq_singleton h]
  simp [blocks]

end

end Chop
