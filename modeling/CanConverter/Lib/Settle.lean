import CanConverter.Lib.Run

/-!
# Runs of a system left to itself

`I` are the steps the system makes of its own.  If each of them lowers a measure, the system left to
itself comes to a stop; if one of them is enabled unless the state is at rest, it stops at rest.

* `Run`          a run of own steps;
* `Run.countP`, `Run.length`  it is no longer than the measure, and neither are the steps that lower
                 it among others that do not raise it;
* `stops`        it can be continued to a state where no own step is enabled;
* `countP_add`, `rests`  the same where a step is taken under a condition, among steps of others
                 that leave the measure alone.
-/

namespace Settle
open Runs

section
variable {σ α : Type*} (step : σ → α → Option σ) (I : α → Prop)

/-- a run of own steps -/
structure Run (s : σ) (l : List α) (t : σ) : Prop where
  own : ∀ a ∈ l, I a
  run : run step s l = some t

/-- no own step is enabled -/
def Stopped (s : σ) : Prop := ∀ a, I a → step s a = none

variable {step I} {m : σ → Nat}

/-- **a run has no more steps of a kind that lowers the measure than the measure** -/
theorem Run.countP (own : α → Bool)
    (hm : ∀ s a t, I a → step s a = some t → m t + (if own a then 1 else 0) ≤ m s) {s t : σ}
    {l : List α} (h : Run step I s l t) : l.countP own + m t ≤ m s := by
  obtain ⟨hl, hrun⟩ := h
  induction l generalizing s with
  | nil =>
    rw [run_nil, Option.some.injEq] at hrun
    exact Nat.le_of_eq (by rw [hrun, List.countP_nil, Nat.zero_add])
  | cons a l ih =>
    obtain ⟨u, hu, hrun⟩ := run_cons_some.mp hrun
    have hone := hm s a u (hl a List.mem_cons_self) hu
    have hle := ih (fun b hb => hl b (List.mem_cons_of_mem a hb)) hrun
    rw [List.countP_cons]
    omega

/-- a run in which all steps lower the measure is no longer than the measure -/
theorem Run.length (hm : ∀ s a t, I a → step s a = some t → m t < m s) {s t : σ} {l : List α}
    (h : Run step I s l t) : l.length + m t ≤ m s := by
  have hcount := h.countP (fun _ => true) fun s a t hI ht => hm s a t hI ht
  rwa [List.countP_true] at hcount

/-- **left to itself the system stops** -/
theorem stops (hm : ∀ s a t, I a → step s a = some t → m t < m s) (s : σ) :
    ∃ l t, Run step I s l t ∧ Stopped step I t := by
  induction hn : m s using Nat.strongRecOn generalizing s with
  | ind n ih =>
    by_cases hs : Stopped step I s
    · exact ⟨[], s, ⟨fun a ha => absurd ha List.not_mem_nil, rfl⟩, hs⟩
    · obtain ⟨a, ha⟩ := not_forall.mp hs
      obtain ⟨hI, ha⟩ := Classical.not_imp.mp ha
      obtain ⟨t, ht⟩ := Option.ne_none_iff_exists'.mp ha
      obtain ⟨l, u, ⟨hl, hrun⟩, hu⟩ := ih (m t) (hn ▸ hm s a t hI ht) t rfl
      refine ⟨a :: l, u, ⟨fun b hb => ?_, run_cons_some.mpr ⟨t, ht, hrun⟩⟩, hu⟩
      rcases List.mem_cons.mp hb with rfl | hb
      · exact hI
      · exact hl b hb

end

/-! ## among the steps of others -/

section
variable {σ α : Type*} {step : σ → α → Option σ} {P : σ → α → Prop} {G R : σ → Prop}
  {own : α → Bool} {m : σ → Nat}

/-- **a run has as many own steps as the measure falls by** -/
theorem countP_add
    (hstep : ∀ s a t, G s → P s a → step s a = some t →
      G t ∧ m t + (if own a then 1 else 0) = m s) {l : List α} :
    ∀ {s t : σ}, G s → Always step P s l → run step s l = some t → l.countP own + m t = m s := by
  induction l with
  | nil =>
    intro s t _ _ hrun
    rw [run_nil, Option.some.injEq] at hrun
    rw [hrun, List.countP_nil, Nat.zero_add]
  | cons a l ih =>
    intro s t hs hP hrun
    obtain ⟨u, hu, hrun⟩ := run_cons_some.mp hrun
    obtain ⟨hG, hm⟩ := hstep s a u hs hP.1 hu
    have hl := ih hG (hP.2 u hu) hrun
    rw [List.countP_cons]
    omega

/-- with the measure used up the state is at rest -/
theorem spent
    (hstep : ∀ s a t, G s → P s a → step s a = some t →
      G t ∧ m t + (if own a then 1 else 0) = m s)
    (hlive : ∀ s, G s → ¬ R s → ∃ a t, own a = true ∧ P s a ∧ step s a = some t) {s : σ}
    (hs : G s) (h0 : m s = 0) : R s := by
  by_contra hR
  obtain ⟨a, t, hown, hP, ht⟩ := hlive s hs hR
  obtain ⟨_, hm⟩ := hstep s a t hs hP ht
  rw [if_pos hown, h0] at hm
  exact absurd hm (Nat.succ_ne_zero _)

/-- **unless it is at rest it can step, so it comes to rest** -/
theorem rests
    (hstep : ∀ s a t, G s → P s a → step s a = some t →
      G t ∧ m t + (if own a then 1 else 0) = m s)
    (hlive : ∀ s, G s → ¬ R s → ∃ a t, own a = true ∧ P s a ∧ step s a = some t) {s : σ}
    (hs : G s) : ∃ t, Reaches step P s t ∧ R t := by
  induction hn : m s generalizing s with
  | zero => exact ⟨s, Reaches.refl s, spent hstep hlive hs hn⟩
  | succ n ih =>
    by_cases hR : R s
    · exact ⟨s, Reaches.refl s, hR⟩
    · obtain ⟨a, t, hown, hP, ht⟩ := hlive s hs hR
      obtain ⟨hG, hm⟩ := hstep s a t hs hP ht
      rw [if_pos hown, hn] at hm
      obtain ⟨u, hu, hRu⟩ := ih hG (Nat.succ.inj hm)
      exact ⟨u, Reaches.head hP ht hu, hRu⟩

end

end Settle
