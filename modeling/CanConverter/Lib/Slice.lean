import Mathlib.Data.List.Basic
import Mathlib.Tactic.Common

/-!
# Slice assignment

`assign l a b r` is Python's `l[a:b] = r` on a mutable sequence: the bounds are clipped to the
sequence, a negative bound counts from the end, and `r` may have any length, so that what follows
the slice can move.

* `assign_eq`          the bounds as they are;
* `length_assign`      the length after it;
* `getElem?_assign`    what an assignment of the same length leaves alone;
* `assign_over`        the last of two assignments to one slice counts;
* `assign_assign`      it does nothing the second time;
* `take_drop_eq_iff`   lists that agree on a range.
-/

namespace Slice
variable {α : Type*}

/-- a bound of a slice of a sequence of length `n` -/
def clip (n : Nat) (i : Int) : Nat := if i < 0 then (i + n).toNat else min i.toNat n

/-- `l[a:b] = r` -/
def assign (l : List α) (a b : Int) (r : List α) : List α :=
  l.take (clip l.length a) ++ r ++ l.drop (max (clip l.length a) (clip l.length b))

theorem clip_of_le {n i : Nat} (h : i ≤ n) : clip n i = i := by
  unfold clip
  rw [if_neg (Int.not_lt.mpr (Int.natCast_nonneg i)), Int.toNat_natCast, Nat.min_eq_left h]

section
variable {l r : List α} {a b : Nat}

theorem assign_eq (hab : a ≤ b) (hb : b ≤ l.length) (r : List α) :
    assign l a b r = l.take a ++ r ++ l.drop b := by
  unfold assign
  rw [clip_of_le (Nat.le_trans hab hb), clip_of_le hb, Nat.max_eq_right hab]

theorem length_assign (hab : a ≤ b) (hb : b ≤ l.length) (r : List α) :
    (assign l a b r).length + (b - a) = l.length + r.length := by
  rw [assign_eq hab hb, List.length_append, List.length_append, List.length_take, List.length_drop]
  omega

/-- outside of the slice nothing changes -/
theorem getElem?_assign (hab : a ≤ b) (hb : b ≤ l.length) (hr : r.length = b - a) {j : Nat}
    (hj : ¬ (a ≤ j ∧ j < b)) : (assign l a b r)[j]? = l[j]? := by
  have hta : (l.take a).length = a := by
    rw [List.length_take]
    omega
  have htr : (l.take a ++ r).length = b := by
    rw [List.length_append, hta]
    omega
  rw [assign_eq hab hb]
  by_cases hlt : j < a
  · rw [List.getElem?_append_left (by omega), List.getElem?_append_left (by omega),
      List.getElem?_take_of_lt hlt]
  · rw [List.getElem?_append_right (by omega), htr, List.getElem?_drop]
    congr 1
    omega

/-- the slice holds what was assigned to it -/
theorem slice_assign (hab : a ≤ b) (hb : b ≤ l.length) (hr : r.length = b - a) :
    ((assign l a b r).drop a).take (b - a) = r := by
  have hta : (l.take a).length = a := by
    rw [List.length_take]
    omega
  rw [assign_eq hab hb, List.append_assoc, List.drop_left' hta, ← hr, List.take_left]

/-! ### an assignment of the same length -/

theorem length_assign_same (hb : a + r.length ≤ l.length) :
    (assign l a (a + r.length : Nat) r).length = l.length := by
  have hadd := length_assign (Nat.le_add_right a r.length) hb r
  omega

/-- inside of the slice stands what was assigned -/
theorem getElem?_assign_mem (hb : a + r.length ≤ l.length) {j : Nat} (ha : a ≤ j)
    (hj : j < a + r.length) : (assign l a (a + r.length : Nat) r)[j]? = r[j - a]? := by
  have hta : (l.take a).length = a := by
    rw [List.length_take]
    omega
  rw [assign_eq (Nat.le_add_right a r.length) hb, List.append_assoc,
    List.getElem?_append_right (by omega), hta, List.getElem?_append_left (by omega)]

theorem getElem?_assign_not_mem (hb : a + r.length ≤ l.length) {j : Nat}
    (hj : ¬ (a ≤ j ∧ j < a + r.length)) :
    (assign l a (a + r.length : Nat) r)[j]? = l[j]? :=
  getElem?_assign (Nat.le_add_right a r.length) hb (Nat.add_sub_cancel_left ..).symm hj

/-- only the last of two assignments of one length to a slice counts -/
theorem assign_over {r' : List α} (hb : a + r.length ≤ l.length) (hr : r'.length = r.length) :
    assign (assign l a (a + r.length : Nat) r') a (a + r.length : Nat) r =
      assign l a (a + r.length : Nat) r := by
  have hout : ∀ j, ¬ (a ≤ j ∧ j < a + r.length) →
      (assign l a (a + r.length : Nat) r')[j]? = l[j]? := by
    rw [← hr] at hb ⊢
    exact fun j hj => getElem?_assign_not_mem hb hj
  have hb' : a + r.length ≤ (assign l a (a + r.length : Nat) r').length := by
    rw [← hr] at hb ⊢
    exact length_assign_same hb ▸ hb
  refine List.ext_getElem? fun j => ?_
  by_cases hj : a ≤ j ∧ j < a + r.length
  · rw [getElem?_assign_mem hb' hj.1 hj.2, getElem?_assign_mem hb hj.1 hj.2]
  · rw [getElem?_assign_not_mem hb' hj, getElem?_assign_not_mem hb hj]
    exact hout j hj

theorem assign_assign (hb : a + r.length ≤ l.length) :
    assign (assign l a (a + r.length : Nat) r) a (a + r.length : Nat) r =
      assign l a (a + r.length : Nat) r := assign_over hb rfl

end

theorem take_drop_eq_iff {l l' : List α} {a n : Nat} :
    (l.drop a).take n = (l'.drop a).take n ↔ ∀ j, a ≤ j → j < a + n → l[j]? = l'[j]? := by
  constructor
  · intro h j ha hj
    have hget := congrArg (fun s : List α => s[j - a]?) h
    simp only [List.getElem?_take_of_lt (show j - a < n by omega), List.getElem?_drop,
      Nat.add_sub_cancel' ha] at hget
    exact hget
  · intro h
    refine List.ext_getElem? fun i => ?_
    by_cases hi : i < n
    · rw [List.getElem?_take_of_lt hi, List.getElem?_take_of_lt hi, List.getElem?_drop,
        List.getElem?_drop]
      exact h (a + i) (Nat.le_add_right a i) (Nat.add_lt_add_left hi a)
    · rw [List.getElem?_take_eq_none (Nat.not_lt.mp hi),
        List.getElem?_take_eq_none (Nat.not_lt.mp hi)]

end Slice
