import Mathlib.Data.List.Induction
import Mathlib.Tactic.Common

/-!
# Runs of a partial step function

`step s a = none` means that the event `a` is not enabled in the state `s`.  A run is a list of
events, each enabled when its turn comes; interleavings of several threads are runs over the sum
of their events.

* `run step s l`           the state after the events `l`;
* `Always step G s l`      every step of the run meets `G` in the state before it;
* `inv_run`, `inv_run_of`  an invariant of one step is an invariant of every run (of every run
                           whose steps meet `G`);
* `Always.with_inv`        the invariant is there at every step of such a run;
* `Reaches step G s t`     a run whose steps meet `G` leads from `s` to `t`;
* `hist_run`               the same for an invariant that also speaks about the events so far;
* `watch`                  a step function carrying a monitor that only looks.
-/

namespace Runs

section
variable {σ α : Type*} (step : σ → α → Option σ)

/-- the state after the events `l`, if every event is enabled when its turn comes -/
def run : σ → List α → Option σ
  | s, [] => some s
  | s, a :: l => (step s a).bind fun t => run t l

/-- every step of the run meets `G` in the state before it -/
def Always (G : σ → α → Prop) : σ → List α → Prop
  | _, [] => True
  | s, a :: l => G s a ∧ ∀ t ∈ step s a, Always G t l

instance Always.decidable (G : σ → α → Prop) [∀ s a, Decidable (G s a)] :
    ∀ s l, Decidable (Always step G s l)
  | _, [] => isTrue True.intro
  | s, a :: l =>
    have : ∀ t, Decidable (Always step G t l) := fun t => Always.decidable G t l
    inferInstanceAs (Decidable (G s a ∧ ∀ t ∈ step s a, Always step G t l))

variable {step}

theorem run_nil (s : σ) : run step s [] = some s := rfl
theorem run_cons (s : σ) (a : α) (l : List α) :
    run step s (a :: l) = (step s a).bind fun t => run step t l := rfl

theorem run_cons_some {s t : σ} {a : α} {l : List α} :
    run step s (a :: l) = some t ↔ ∃ u, step s a = some u ∧ run step u l = some t := by
  rw [run_cons, Option.bind_eq_some_iff]

theorem run_append (s : σ) (l l' : List α) :
    run step s (l ++ l') = (run step s l).bind fun t => run step t l' := by
  induction l generalizing s with
  | nil => rfl
  | cons a l ih =>
    rw [List.cons_append, run_cons, run_cons, Option.bind_assoc]
    exact congrArg _ (funext ih)

theorem run_append_some {s t : σ} {l l' : List α} :
    run step s (l ++ l') = some t ↔ ∃ u, run step s l = some u ∧ run step u l' = some t := by
  rw [run_append, Option.bind_eq_some_iff]

theorem run_snoc_some {s t : σ} {l : List α} {a : α} :
    run step s (l ++ [a]) = some t ↔ ∃ u, run step s l = some u ∧ step u a = some t := by
  rw [run_append_some]
  simp only [run_cons_some, run_nil, Option.some.injEq, exists_eq_right]

theorem Always.cons {G : σ → α → Prop} {s : σ} {a : α} {l : List α} :
    Always step G s (a :: l) ↔ G s a ∧ ∀ t ∈ step s a, Always step G t l := Iff.rfl

theorem Always.mono {G G' : σ → α → Prop} (hG : ∀ s a, G s a → G' s a) :
    ∀ {l : List α} {s : σ}, Always step G s l → Always step G' s l
  | [], _, _ => True.intro
  | a :: _, s, h => ⟨hG s a h.1, fun t ht => Always.mono hG (h.2 t ht)⟩

/-- **An invariant of every step that meets `G` holds after every run whose steps meet `G`.** -/
theorem inv_run_of {G : σ → α → Prop} {I : σ → Prop}
    (hstep : ∀ s a t, I s → G s a → step s a = some t → I t) {l : List α} :
    ∀ {s t : σ}, I s → Always step G s l → run step s l = some t → I t := by
  induction l with
  | nil =>
    intro s t hs _ h
    rw [run_nil, Option.some.injEq] at h
    exact h ▸ hs
  | cons a l ih =>
    intro s t hs hG h
    obtain ⟨u, hu, hl⟩ := run_cons_some.mp h
    exact ih (hstep s a u hs hG.1 hu) (hG.2 u hu) hl

/-- on a run whose steps meet `G` the invariant is there at every step -/
theorem Always.with_inv {G : σ → α → Prop} {I : σ → Prop}
    (hstep : ∀ s a t, I s → G s a → step s a = some t → I t) :
    ∀ {l : List α} {s : σ}, I s → Always step G s l → Always step (fun s a => I s ∧ G s a) s l
  | [], _, _, _ => True.intro
  | a :: _, s, hs, h =>
    ⟨⟨hs, h.1⟩, fun t ht => Always.with_inv hstep (hstep s a t hs h.1 ht) (h.2 t ht)⟩

theorem Always.trivial : ∀ (l : List α) (s : σ), Always step (fun _ _ => True) s l
  | [], _ => True.intro
  | _ :: l, _ => ⟨True.intro, fun t _ => Always.trivial l t⟩

/-- **An invariant of every step holds after every run.** -/
theorem inv_run {I : σ → Prop} (hstep : ∀ s a t, I s → step s a = some t → I t)
    {s t : σ} {l : List α} (hs : I s) (h : run step s l = some t) : I t :=
  inv_run_of (G := fun _ _ => True) (fun s a t hs _ ht => hstep s a t hs ht) hs
    (Always.trivial l s) h

/-- **An invariant that also speaks about the events so far.** -/
theorem hist_run {I : List α → σ → Prop} {s₀ : σ} (h0 : I [] s₀)
    (hstep : ∀ l s a t, I l s → step s a = some t → I (l ++ [a]) t) {t : σ} {l : List α}
    (h : run step s₀ l = some t) : I l t := by
  induction l using List.reverseRecOn generalizing t with
  | nil =>
    rw [run_nil, Option.some.injEq] at h
    exact h ▸ h0
  | append_singleton l a ih =>
    obtain ⟨u, hu, ht⟩ := run_snoc_some.mp h
    exact hstep l u a t (ih hu) ht

variable (step) in
/-- `t` is reached from `s` by a run whose steps meet `G` -/
def Reaches (G : σ → α → Prop) (s t : σ) : Prop :=
  ∃ l, Always step G s l ∧ run step s l = some t

theorem Reaches.refl {G : σ → α → Prop} (s : σ) : Reaches step G s s := ⟨[], True.intro, rfl⟩

theorem Reaches.head {G : σ → α → Prop} {s t u : σ} {a : α} (hG : G s a) (hs : step s a = some t)
    (h : Reaches step G t u) : Reaches step G s u := by
  obtain ⟨l, hl, hrun⟩ := h
  refine ⟨a :: l, ⟨hG, fun v hv => ?_⟩, run_cons_some.mpr ⟨t, hs, hrun⟩⟩
  obtain rfl := Option.some.inj (hs.symm.trans hv)
  exact hl

theorem Reaches.trans {G : σ → α → Prop} {s t u : σ} (h : Reaches step G s t)
    (h' : Reaches step G t u) : Reaches step G s u := by
  obtain ⟨l, hl, hrun⟩ := h
  induction l generalizing s with
  | nil =>
    rw [run_nil, Option.some.injEq] at hrun
    exact hrun ▸ h'
  | cons a l ih =>
    obtain ⟨v, hv, hrun⟩ := run_cons_some.mp hrun
    exact Reaches.head hl.1 hv (ih (hl.2 v hv) hrun)

theorem Reaches.inv {G : σ → α → Prop} {I : σ → Prop}
    (hstep : ∀ s a t, I s → G s a → step s a = some t → I t) {s t : σ} (hs : I s)
    (h : Reaches step G s t) : I t := by
  obtain ⟨l, hl, hrun⟩ := h
  exact inv_run_of hstep hs hl hrun

end

/-! ## monitors -/

section
variable {σ α μ : Type*} (upd : μ → σ → α → σ → μ) (step : σ → α → Option σ)

/-- `step` with a monitor: it sees the state before, the event and the state after -/
def watch : μ × σ → α → Option (μ × σ) :=
  fun p a => (step p.2 a).map fun t => (upd p.1 p.2 a t, t)

variable {upd step}

theorem watch_some {p q : μ × σ} {a : α} :
    watch upd step p a = some q ↔ step p.2 a = some q.2 ∧ q.1 = upd p.1 p.2 a q.2 := by
  unfold watch
  rw [Option.map_eq_some_iff]
  constructor
  · rintro ⟨t, ht, rfl⟩
    exact ⟨ht, rfl⟩
  · rintro ⟨ht, hq⟩
    exact ⟨q.2, ht, Prod.ext hq.symm rfl⟩

/-- a monitor does not change what the steps of a run meet -/
theorem Always.watch {G : σ → α → Prop} {l : List α} :
    ∀ {p : μ × σ}, Always step G p.2 l → Always (watch upd step) (fun p a => G p.2 a) p l := by
  induction l with
  | nil => exact fun _ => True.intro
  | cons a l ih =>
    rintro p ⟨hG, hl⟩
    refine ⟨hG, fun q hq => ih (hl q.2 ?_)⟩
    exact (watch_some.mp hq).1

end

end Runs
