import Mathlib.Tactic.Common

/-!
# Loops that poll

In the round `n` the body of the loop sees what the environment has for that round, and either goes
on with another state or stops for good.

* `after`        where the loop is after `n` rounds;
* `stopped_of_le`, `going_of_le`   a loop that has stopped stays so;
* `stopped_round`   the round in which it has;
* `inv_going`    what holds as long as the loop goes on;
* `forall_iff`   a property of the loop holds at all times exactly if every round that is reached
                 meets the condition under which the round keeps it.
-/

namespace Poll

inductive Outcome (σ τ : Type*) where
  | going (s : σ)
  | stopped (t : τ)
deriving DecidableEq

section
variable {σ τ : Type*} (body : Nat → σ → Outcome σ τ) (s₀ : σ)

def after : Nat → Outcome σ τ
  | 0 => .going s₀
  | n + 1 =>
    match after n with
    | .going s => body n s
    | .stopped t => .stopped t

variable {body s₀} {n m : Nat} {s : σ} {t : τ}

theorem after_succ_going (h : after body s₀ n = .going s) : after body s₀ (n + 1) = body n s := by
  rw [after, h]

theorem after_succ_stopped (h : after body s₀ n = .stopped t) :
    after body s₀ (n + 1) = .stopped t := by
  rw [after, h]

theorem stopped_of_le (h : after body s₀ n = .stopped t) (hle : n ≤ m) :
    after body s₀ m = .stopped t := by
  induction hle with
  | refl => exact h
  | step _ ih => exact after_succ_stopped ih

theorem going_of_le (h : after body s₀ m = .going s) (hle : n ≤ m) :
    ∃ s', after body s₀ n = .going s' := by
  cases hn : after body s₀ n with
  | going s' => exact ⟨s', rfl⟩
  | stopped t => cases h.symm.trans (stopped_of_le hn hle)

/-- the last round of a loop that goes on -/
theorem going_succ (h : after body s₀ (n + 1) = .going s) :
    ∃ s', after body s₀ n = .going s' ∧ body n s' = .going s := by
  obtain ⟨s', hs'⟩ := going_of_le h (Nat.le_succ n)
  exact ⟨s', hs', (after_succ_going hs').symm.trans h⟩

/-- the round in which a loop has stopped -/
theorem stopped_round (h : after body s₀ n = .stopped t) :
    ∃ k < n, ∃ s, after body s₀ k = .going s ∧ body k s = .stopped t := by
  induction n with
  | zero => cases h
  | succ n ih =>
    cases hn : after body s₀ n with
    | going s => exact ⟨n, Nat.lt_succ_self n, s, hn, (after_succ_going hn).symm.trans h⟩
    | stopped t' =>
      obtain rfl : t' = t := Outcome.stopped.inj ((after_succ_stopped hn).symm.trans h)
      obtain ⟨k, hk, hround⟩ := ih hn
      exact ⟨k, Nat.lt_succ_of_lt hk, hround⟩

theorem inv_going {I : Nat → σ → Prop} (h0 : I 0 s₀)
    (hstep : ∀ n s s', I n s → body n s = .going s' → I (n + 1) s')
    (h : after body s₀ n = .going s) : I n s := by
  induction n generalizing s with
  | zero =>
    cases h
    exact h0
  | succ n ih =>
    obtain ⟨s', hs', hbody⟩ := going_succ h
    exact hstep n s' s (ih hs') hbody

variable (body s₀) in
theorem forall_iff {P : Nat → Outcome σ τ → Prop} {C : Nat → Prop} (h0 : P 0 (.going s₀))
    (hstep : ∀ n s, after body s₀ n = .going s → P n (.going s) → (P (n + 1) (body n s) ↔ C n))
    (hstay : ∀ n t, after body s₀ n = .stopped t → P n (.stopped t) → P (n + 1) (.stopped t)) :
    (∀ n, P n (after body s₀ n)) ↔
      ∀ n s, after body s₀ n = .going s → P n (.going s) → C n := by
  constructor
  · intro h n s hs _
    have hnext := h (n + 1)
    rw [after_succ_going hs] at hnext
    exact (hstep n s hs (hs ▸ h n)).mp hnext
  · intro h n
    induction n with
    | zero => exact h0
    | succ n ih =>
      cases hn : after body s₀ n with
      | going s =>
        rw [after_succ_going hn]
        exact (hstep n s hn (hn ▸ ih)).mpr (h n s hn (hn ▸ ih))
      | stopped t =>
        rw [after_succ_stopped hn]
        exact hstay n t hn (hn ▸ ih)

end

end Poll
