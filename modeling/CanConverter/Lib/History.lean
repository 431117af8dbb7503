import CanConverter.Lib.Run

/-!
# Histories of runs

* `since f l`          the last event of the history `l` that `f` picks, and the events after it;
* `recorded step`      a step function that keeps the history;
* `watch_run`          a monitor stops no run, and `run_of_watch` forgets it;
* `always_iff_reached` a property of the reached states holds all along a run exactly if every
                       step of the run meets the condition under which one step keeps it.
-/

namespace Runs

section
variable {α β : Type*} (f : α → Option β)

/-- one more event of the history -/
def sinceStep (o : Option (β × List α)) (a : α) : Option (β × List α) :=
  match f a with
  | some b => some (b, [])
  | none => o.map fun p => (p.1, p.2 ++ [a])

/-- the last event that `f` picks, and the events after it -/
def since (l : List α) : Option (β × List α) := l.foldl (sinceStep f) none

variable {f}

theorem since_snoc (l : List α) (a : α) : since f (l ++ [a]) = sinceStep f (since f l) a := by
  rw [since, List.foldl_append]
  rfl

theorem since_snoc_some {a : α} {b : β} (h : f a = some b) (l : List α) :
    since f (l ++ [a]) = some (b, []) := by
  rw [since_snoc, sinceStep, h]

theorem since_snoc_none {a : α} (h : f a = none) (l : List α) :
    since f (l ++ [a]) = (since f l).map fun p => (p.1, p.2 ++ [a]) := by
  rw [since_snoc, sinceStep, h]

end

section
variable {σ α : Type*} (step : σ → α → Option σ)

/-- a step function that keeps the history -/
def recorded : List α × σ → α → Option (List α × σ) := watch (fun l _ a _ => l ++ [a]) step

variable {step}

theorem recorded_some {p q : List α × σ} {a : α} :
    recorded step p a = some q ↔ step p.2 a = some q.2 ∧ q.1 = p.1 ++ [a] := watch_some

/-- the history of a run is the run -/
theorem recorded_run {p q : List α × σ} {l : List α} :
    run (recorded step) p l = some q ↔ run step p.2 l = some q.2 ∧ q.1 = p.1 ++ l := by
  induction l generalizing p with
  | nil =>
    rw [run_nil, run_nil, List.append_nil, Option.some.injEq, Option.some.injEq]
    exact ⟨fun h => ⟨congrArg Prod.snd h, congrArg Prod.fst h.symm⟩,
      fun h => Prod.ext h.2.symm h.1⟩
  | cons a l ih =>
    rw [run_cons_some, run_cons_some]
    constructor
    · rintro ⟨u, hu, hl⟩
      obtain ⟨hs, hh⟩ := recorded_some.mp hu
      obtain ⟨ht, hq⟩ := ih.mp hl
      exact ⟨⟨u.2, hs, ht⟩, by rw [hq, hh, List.append_assoc]; rfl⟩
    · rintro ⟨⟨u, hu, hl⟩, hq⟩
      refine ⟨(p.1 ++ [a], u), recorded_some.mpr ⟨hu, rfl⟩, ih.mpr ⟨hl, ?_⟩⟩
      rw [hq, List.append_assoc]
      rfl

/-- a monitor stops no run -/
theorem watch_run {μ : Type*} {upd : μ → σ → α → σ → μ} {l : List α} :
    ∀ {p : μ × σ} {t : σ}, run step p.2 l = some t → ∃ m, run (watch upd step) p l = some (m, t) := by
  induction l with
  | nil =>
    intro p t h
    rw [run_nil, Option.some.injEq] at h
    exact ⟨p.1, congrArg some (Prod.ext rfl h)⟩
  | cons a l ih =>
    intro p t h
    obtain ⟨u, hu, hl⟩ := run_cons_some.mp h
    obtain ⟨m, hm⟩ := ih (p := (upd p.1 p.2 a u, u)) hl
    exact ⟨m, run_cons_some.mpr ⟨_, watch_some.mpr ⟨hu, rfl⟩, hm⟩⟩

theorem run_of_watch {μ : Type*} {upd : μ → σ → α → σ → μ} {l : List α} :
    ∀ {p q : μ × σ}, run (watch upd step) p l = some q → run step p.2 l = some q.2 := by
  induction l with
  | nil =>
    intro p q h
    rw [run_nil, Option.some.injEq] at h
    exact congrArg (some ∘ Prod.snd) h
  | cons a l ih =>
    intro p q h
    obtain ⟨u, hu, hl⟩ := run_cons_some.mp h
    exact run_cons_some.mpr ⟨u.2, (watch_some.mp hu).1, ih hl⟩

theorem Always.append {G : σ → α → Prop} {l l' : List α} :
    ∀ {s t : σ}, Always step G s (l ++ l') → run step s l = some t →
      Always step G s l ∧ Always step G t l' := by
  induction l with
  | nil =>
    intro s t h ht
    rw [run_nil, Option.some.injEq] at ht
    exact ⟨True.intro, ht ▸ h⟩
  | cons a l ih =>
    intro s t h ht
    obtain ⟨u, hu, hl⟩ := run_cons_some.mp ht
    obtain ⟨h1, h2⟩ := ih (h.2 u hu) hl
    refine ⟨⟨h.1, fun v hv => ?_⟩, h2⟩
    obtain rfl := Option.some.inj (hu.symm.trans hv)
    exact h1

/-- **A property is there in every state a run reaches exactly if every step of the run meets the
condition under which a step keeps it.** -/
theorem always_iff_reached {G : σ → α → Prop} {P : σ → Prop}
    (hstep : ∀ s a t, P s → step s a = some t → (P t ↔ G s a)) {l : List α} :
    ∀ {s u : σ}, P s → run step s l = some u →
      (Always step G s l ↔ ∀ l' t, l' <+: l → run step s l' = some t → P t) := by
  induction l with
  | nil =>
    intro s u hs _
    refine ⟨fun _ l' t hl ht => ?_, fun _ => True.intro⟩
    rw [List.prefix_nil.mp hl, run_nil, Option.some.injEq] at ht
    exact ht ▸ hs
  | cons a l ih =>
    intro s u hs hrun
    obtain ⟨v, hv, hl⟩ := run_cons_some.mp hrun
    have hone : run step s [a] = some v := run_cons_some.mpr ⟨v, hv, rfl⟩
    constructor
    · rintro ⟨hG, hrest⟩ l' t hpre ht
      have hPv : P v := (hstep s a v hs hv).mpr hG
      cases l' with
      | nil =>
        rw [run_nil, Option.some.injEq] at ht
        exact ht ▸ hs
      | cons b l' =>
        obtain ⟨rfl, hpre'⟩ := List.cons_prefix_cons.mp hpre
        obtain ⟨w, hw, ht⟩ := run_cons_some.mp ht
        obtain rfl := Option.some.inj (hv.symm.trans hw)
        exact (ih hPv hl).mp (hrest v hv) l' t hpre' ht
    · intro hall
      have hPv : P v := hall [a] v (List.cons_prefix_cons.mpr ⟨rfl, List.nil_prefix⟩) hone
      refine ⟨(hstep s a v hs hv).mp hPv, fun t ht => ?_⟩
      obtain rfl := Option.some.inj (hv.symm.trans ht)
      refine (ih hPv hl).mpr fun l' w hpre hw => ?_
      exact hall (a :: l') w (List.cons_prefix_cons.mpr ⟨rfl, hpre⟩)
        (run_cons_some.mpr ⟨v, hv, hw⟩)

end

end Runs
