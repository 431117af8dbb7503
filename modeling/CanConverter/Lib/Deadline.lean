import Mathlib.Data.List.Induction
import Mathlib.Data.List.Forall2
import Mathlib.Order.Lattice
import Mathlib.Tactic.Common

/-!
# Work due at deadlines, done in rounds

A loop reads the clock once in each round and does the next piece of work if its deadline has
passed: at most one piece a round, and none is skipped.  `d n` is the deadline of the piece `n`; the
readings are a list, the last one at the end.

* `done d l`       the pieces done after the readings `l`;
* `lt_done_snoc`   one more round: the piece `n` is done if those before it are and it is due;
* `lt_done_iff`    the piece `n` is done if and only if the last `n + 1` readings were past the
                   deadlines `0 .. n`, one for one.
-/

namespace Deadline
variable {T : Type*} [LinearOrder T] (d : Nat → T)

/-- one round, at the reading `t` -/
def round (n : Nat) (t : T) : Nat := if d n ≤ t then n + 1 else n

/-- the pieces done after the readings -/
def done (l : List T) : Nat := l.foldl (round d) 0

/-- the last readings of `l` were past the deadlines `0 .. n`, one for one -/
def Covered (n : Nat) (l : List T) : Prop :=
  ∃ pre last, l = pre ++ last ∧ List.Forall₂ (fun t i => d i ≤ t) last (List.range (n + 1))

variable {d} {l : List T} {t : T} {n : Nat}

theorem done_snoc (l : List T) (t : T) : done d (l ++ [t]) = round d (done d l) t := by
  rw [done, List.foldl_append]
  rfl

/-- no piece is done before its deadline -/
theorem exists_of_lt_done (h : n < done d l) : ∃ t ∈ l, d n ≤ t := by
  induction l using List.reverseRecOn with
  | nil => exact absurd h (Nat.not_lt_zero n)
  | append_singleton l t ih =>
    rw [done_snoc, round] at h
    have hmem : t ∈ l ++ [t] := List.mem_append_right _ (List.mem_singleton.mpr rfl)
    by_cases hn : n < done d l
    · obtain ⟨u, hu, hd⟩ := ih hn
      exact ⟨u, List.mem_append_left _ hu, hd⟩
    · split at h
      · rename_i hd
        obtain rfl : n = done d l := by omega
        exact ⟨t, hmem, hd⟩
      · exact absurd h hn

/-- **one more round** -/
theorem lt_done_snoc (hl : (l ++ [t]).Pairwise (· ≤ ·)) :
    n < done d (l ++ [t]) ↔ n ≤ done d l ∧ d n ≤ t := by
  have hlast : ∀ u ∈ l, u ≤ t := fun u hu =>
    (List.pairwise_append.mp hl).2.2 u hu t (List.mem_singleton.mpr rfl)
  rw [done_snoc, round]
  constructor
  · intro h
    by_cases hn : n < done d l
    · obtain ⟨u, hu, hd⟩ := exists_of_lt_done hn
      exact ⟨Nat.le_of_lt hn, hd.trans (hlast u hu)⟩
    · split at h
      · rename_i hd
        obtain rfl : n = done d l := by omega
        exact ⟨Nat.le_refl _, hd⟩
      · exact absurd h hn
  · rintro ⟨hle, hd⟩
    rcases Nat.lt_or_eq_of_le hle with hlt | rfl
    · split <;> omega
    · rw [if_pos hd]
      exact Nat.lt_succ_self _

theorem covered_nil : ¬ Covered d n ([] : List T) := by
  rintro ⟨pre, last, hl, hf⟩
  obtain ⟨rfl, rfl⟩ := List.append_eq_nil_iff.mp hl.symm
  have hlen := hf.length_eq
  rw [List.length_range] at hlen
  exact Nat.succ_ne_zero n hlen.symm

/-- the readings before the last one are past the deadlines before -/
theorem covered_snoc :
    Covered d n (l ++ [t]) ↔ (n = 0 ∨ ∃ m, n = m + 1 ∧ Covered d m l) ∧ d n ≤ t := by
  constructor
  · rintro ⟨pre, last, hl, hf⟩
    rw [List.range_succ] at hf
    have htake := List.forall₂_take_append last (List.range n) [n] hf
    have hdrop := List.forall₂_drop_append last (List.range n) [n] hf
    rw [List.length_range] at htake hdrop
    rw [← List.take_append_drop n last] at hl
    generalize last.take n = last', last.drop n = u at hl htake hdrop
    cases hdrop with
    | cons hd hnil =>
      cases hnil
      rw [← List.append_assoc] at hl
      obtain ⟨rfl, hut⟩ := List.append_inj' hl rfl
      obtain rfl := List.singleton_inj.mp hut
      refine ⟨?_, hd⟩
      cases n with
      | zero => exact .inl rfl
      | succ m => exact .inr ⟨m, rfl, pre, last', rfl, htake⟩
  · rintro ⟨hn, hd⟩
    have hlast : List.Forall₂ (fun t i => d i ≤ t) [t] [n] := .cons hd .nil
    rcases hn with rfl | ⟨m, rfl, pre, last, rfl, hf⟩
    · exact ⟨l, [t], rfl, hlast⟩
    · refine ⟨pre, last ++ [t], List.append_assoc .., ?_⟩
      rw [List.range_succ]
      exact List.rel_append hf hlast

/-- **The piece `n` is done if and only if the last `n + 1` readings were past the deadlines
`0 .. n`, one for one.** -/
theorem lt_done_iff (hl : l.Pairwise (· ≤ ·)) : n < done d l ↔ Covered d n l := by
  induction l using List.reverseRecOn generalizing n with
  | nil => exact iff_of_false (Nat.not_lt_zero n) covered_nil
  | append_singleton l t ih =>
    have hl' : l.Pairwise (· ≤ ·) := (List.pairwise_append.mp hl).1
    rw [lt_done_snoc hl, covered_snoc]
    refine and_congr_left fun _ => ?_
    cases n with
    | zero => exact iff_of_true (Nat.zero_le _) (.inl rfl)
    | succ m =>
      rw [Nat.succ_le_iff, ih hl']
      constructor
      · exact fun h => .inr ⟨m, rfl, h⟩
      · rintro (h | ⟨m', hm, h⟩)
        · exact absurd h (Nat.succ_ne_zero m)
        · exact Nat.succ.inj hm ▸ h

end Deadline
