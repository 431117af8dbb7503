import CanConverter.Lib.Run
import Mathlib.Logic.Function.Basic

/-!
# Threads that share a state under one mutex

A critical section is a list of operations on the shared state and the thread's own state; between
two of them every other thread may step, as long as it does not take the lock.

* `step`         one operation, entry to or exit from a section, or private step at a time;
* `atomicStep`   a whole section in one step;
* `finish`       the state once the section in progress is over;
* `finish_run`   under the mutex a run of `step` is a run of `atomicStep` of the same sections, in
                 the order in which the lock was taken.
-/

/-- what the threads run: sections with a guard on the thread's own state, and private steps -/
structure Lock {ι : Type} (σ : Type) (L κ α : ι → Type) where
  ops : ∀ i, κ i → List (σ × L i → σ × L i)
  may : ∀ i, κ i → L i → Bool
  priv : ∀ i, α i → L i → Option (L i)

namespace Lock
open Runs

/-- the operations one after another -/
def exec {τ : Type} (fs : List (τ → τ)) (x : τ) : τ := fs.foldl (fun x f => f x) x

theorem exec_nil {τ : Type} (x : τ) : exec [] x = x := rfl
theorem exec_cons {τ : Type} (f : τ → τ) (fs : List (τ → τ)) (x : τ) :
    exec (f :: fs) x = exec fs (f x) := rfl

/-- the shared state and what each thread has of its own -/
@[ext] structure St {ι : Type} (σ : Type) (L : ι → Type) where
  shared : σ
  own : ∀ i, L i

/-- with the holder of the lock and what is left of its section -/
structure Held {ι : Type} (σ : Type) (L : ι → Type) where
  st : St σ L
  holder : Option (Σ i, List (σ × L i → σ × L i)) := none

inductive Ev {ι : Type} (κ α : ι → Type) where
  | enter (i : ι) (k : κ i)
  | op
  | leave
  | priv (i : ι) (a : α i)

inductive Atom {ι : Type} (κ α : ι → Type) where
  | sect (i : ι) (k : κ i)
  | priv (i : ι) (a : α i)

section
variable {ι σ : Type} {L κ α : ι → Type}

/-- what the thread `i` sees -/
def St.view (s : St σ L) (i : ι) : σ × L i := (s.shared, s.own i)

/-- the thread `i` holds the lock -/
def Held.Inside (s : Held σ L) (i : ι) : Prop := ∃ p ∈ s.holder, p.1 = i

/-- the section an event begins, or the private step it is -/
def Ev.atom? : Ev κ α → Option (Atom κ α)
  | .enter i k => some (.sect i k)
  | .priv i a => some (.priv i a)
  | _ => none

/-- the sections and private steps of a run, in the order in which they began -/
def order (l : List (Ev κ α)) : List (Atom κ α) := l.filterMap Ev.atom?

variable [DecidableEq ι]

def St.set (s : St σ L) (i : ι) (x : σ × L i) : St σ L :=
  { shared := x.1, own := Function.update s.own i x.2 }

def St.setOwn (s : St σ L) (i : ι) (a : L i) : St σ L :=
  { s with own := Function.update s.own i a }

/-- the section in progress done to its end -/
def Held.finish (s : Held σ L) : St σ L :=
  match s.holder with
  | none => s.st
  | some ⟨i, fs⟩ => s.st.set i (exec fs (s.st.view i))

instance (s : Held σ L) (i : ι) : Decidable (s.Inside i) :=
  match h : s.holder with
  | none => isFalse fun ⟨_, hp, _⟩ => by rw [h] at hp; cases hp
  | some p => decidable_of_iff (p.1 = i) (by simp [Held.Inside, h])

variable (P : Lock σ L κ α)

/-- the lock is taken only when it is free, and its holder does nothing but its section -/
def step (s : Held σ L) : Ev κ α → Option (Held σ L)
  | .enter i k =>
    match s.holder with
    | none => if P.may i k (s.st.own i) then some { s with holder := some ⟨i, P.ops i k⟩ } else none
    | some _ => none
  | .op =>
    match s.holder with
    | some ⟨i, f :: fs⟩ => some { st := s.st.set i (f (s.st.view i)), holder := some ⟨i, fs⟩ }
    | _ => none
  | .leave =>
    match s.holder with
    | some ⟨_, []⟩ => some { s with holder := none }
    | _ => none
  | .priv i a =>
    if s.Inside i then none
    else (P.priv i a (s.st.own i)).map fun b => { s with st := s.st.setOwn i b }

/-- a section in one step -/
def atomicStep (s : St σ L) : Atom κ α → Option (St σ L)
  | .sect i k =>
    if P.may i k (s.own i) then some (s.set i (exec (P.ops i k) (s.view i))) else none
  | .priv i a => (P.priv i a (s.own i)).map (s.setOwn i)

end

section
variable {ι σ : Type} {L κ α : ι → Type} [DecidableEq ι] {P : Lock σ L κ α}

theorem view_set (s : St σ L) (i : ι) (x : σ × L i) : (s.set i x).view i = x :=
  Prod.ext rfl (Function.update_self i x.2 s.own)

theorem set_set (s : St σ L) (i : ι) (x y : σ × L i) : (s.set i x).set i y = s.set i y := by
  unfold St.set
  rw [Function.update_idem]

theorem set_view (s : St σ L) (i : ι) : s.set i (s.view i) = s := by
  unfold St.set St.view
  rw [Function.update_eq_self]

theorem own_set_of_ne (s : St σ L) {i j : ι} (h : j ≠ i) (x : σ × L i) :
    (s.set i x).own j = s.own j := Function.update_of_ne h _ _

theorem own_setOwn_of_ne (s : St σ L) {i j : ι} (h : j ≠ i) (b : L i) :
    (s.setOwn i b).own j = s.own j := Function.update_of_ne h _ _

theorem view_setOwn_of_ne (s : St σ L) {i j : ι} (h : i ≠ j) (b : L j) :
    (s.setOwn j b).view i = s.view i :=
  Prod.ext rfl (Function.update_of_ne h b s.own)

/-- the private steps of the others commute with a section -/
theorem set_setOwn (s : St σ L) {i j : ι} (h : i ≠ j) (b : L j) (x : σ × L i) :
    (s.setOwn j b).set i x = (s.set i x).setOwn j b := by
  unfold St.set St.setOwn
  rw [Function.update_comm h]

theorem finish_none {s : Held σ L} (h : s.holder = none) : s.finish = s.st := by
  unfold Held.finish
  rw [h]

theorem finish_some {s : Held σ L} {i : ι} {fs : List (σ × L i → σ × L i)}
    (h : s.holder = some ⟨i, fs⟩) : s.finish = s.st.set i (exec fs (s.st.view i)) := by
  unfold Held.finish
  rw [h]

/-- the section in progress changes nothing that belongs to another thread -/
theorem finish_own {s : Held σ L} {i : ι} (h : ¬ s.Inside i) : s.finish.own i = s.st.own i := by
  cases hh : s.holder with
  | none => rw [finish_none hh]
  | some p =>
    obtain ⟨j, fs⟩ := p
    have hij : i ≠ j := fun hij => h ⟨⟨j, fs⟩, hh, hij.symm⟩
    rw [finish_some hh, own_set_of_ne _ hij]

/-! ## what a step can do -/

theorem step_enter {s t : Held σ L} {i : ι} {k : κ i} (h : step P s (.enter i k) = some t) :
    s.holder = none ∧ P.may i k (s.st.own i) = true ∧
      t = { s with holder := some ⟨i, P.ops i k⟩ } := by
  simp only [step] at h
  split at h
  · rename_i hh
    split at h
    · rename_i hm
      exact ⟨hh, hm, (Option.some.inj h).symm⟩
    · cases h
  · cases h

theorem step_op {s t : Held σ L} (h : step P s .op = some t) :
    ∃ i f fs, s.holder = some ⟨i, f :: fs⟩ ∧
      t = { st := s.st.set i (f (s.st.view i)), holder := some ⟨i, fs⟩ } := by
  simp only [step] at h
  split at h
  · rename_i i f fs hh
    exact ⟨i, f, fs, hh, (Option.some.inj h).symm⟩
  · cases h

theorem step_leave {s t : Held σ L} (h : step P s .leave = some t) :
    ∃ i, s.holder = some ⟨i, []⟩ ∧ t = { s with holder := none } := by
  simp only [step] at h
  split at h
  · rename_i i hh
    exact ⟨i, hh, (Option.some.inj h).symm⟩
  · cases h

theorem step_priv {s t : Held σ L} {i : ι} {a : α i} (h : step P s (.priv i a) = some t) :
    ¬ s.Inside i ∧ ∃ b, P.priv i a (s.st.own i) = some b ∧
      t = { s with st := s.st.setOwn i b } := by
  simp only [step] at h
  split at h
  · cases h
  · rename_i hi
    obtain ⟨b, hb, rfl⟩ := Option.map_eq_some_iff.mp h
    exact ⟨hi, b, hb, rfl⟩

/-! ## the sections are atomic -/

theorem finish_step {s t : Held σ L} {e : Ev κ α} (h : step P s e = some t) :
    run (atomicStep P) s.finish e.atom?.toList = some t.finish := by
  cases e with
  | enter i k =>
    obtain ⟨hh, hm, rfl⟩ := step_enter h
    rw [finish_none hh, finish_some rfl]
    show (atomicStep P s.st (.sect i k)).bind _ = _
    rw [atomicStep, if_pos hm]
    rfl
  | op =>
    obtain ⟨i, f, fs, hh, rfl⟩ := step_op h
    rw [finish_some hh, finish_some rfl, view_set, set_set, exec_cons]
    rfl
  | leave =>
    obtain ⟨i, hh, rfl⟩ := step_leave h
    rw [finish_some hh, finish_none rfl, exec_nil, set_view]
    rfl
  | priv i a =>
    obtain ⟨hi, b, hb, rfl⟩ := step_priv h
    have hown : P.priv i a (s.finish.own i) = some b := by rw [finish_own hi, hb]
    have hset : s.finish.setOwn i b = ({ s with st := s.st.setOwn i b } : Held σ L).finish := by
      cases hh : s.holder with
      | none => rw [finish_none hh, finish_none rfl]
      | some p =>
        obtain ⟨j, fs⟩ := p
        have hij : j ≠ i := fun hij => hi ⟨⟨j, fs⟩, hh, hij⟩
        rw [finish_some hh, finish_some rfl, view_setOwn_of_ne _ hij, set_setOwn _ hij]
    show (atomicStep P s.finish (.priv i a)).bind _ = _
    rw [atomicStep, hown, ← hset]
    rfl

/-- **Under the mutex every run is one whose sections are atomic.** -/
theorem finish_run {s t : Held σ L} {l : List (Ev κ α)} (h : run (step P) s l = some t) :
    run (atomicStep P) s.finish (order l) = some t.finish := by
  induction l generalizing s with
  | nil =>
    rw [run_nil, Option.some.injEq] at h
    exact congrArg (fun u => some u.finish) h
  | cons e l ih =>
    obtain ⟨u, hu, hl⟩ := run_cons_some.mp h
    have hsplit : order (e :: l) = e.atom?.toList ++ order l := by
      unfold order
      rw [List.filterMap_cons]
      cases e.atom? <;> rfl
    rw [hsplit, run_append, finish_step hu]
    exact ih hl

theorem atomic_sect {s t : St σ L} {i : ι} {k : κ i} (h : atomicStep P s (.sect i k) = some t) :
    P.may i k (s.own i) = true ∧ t = s.set i (exec (P.ops i k) (s.view i)) := by
  simp only [atomicStep] at h
  split at h
  · rename_i hm
    exact ⟨hm, (Option.some.inj h).symm⟩
  · cases h

theorem atomic_priv {s t : St σ L} {i : ι} {a : α i} (h : atomicStep P s (.priv i a) = some t) :
    ∃ b, P.priv i a (s.own i) = some b ∧ t = s.setOwn i b := by
  obtain ⟨b, hb, rfl⟩ := Option.map_eq_some_iff.mp h
  exact ⟨b, hb, rfl⟩

end

end Lock
