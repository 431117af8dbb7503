import CanConverter.Lib.Run

/-!
# Counters incremented by a load and a store

Threads increment a shared counter.  An increment is a load of the value and, later, a store of the
value loaded plus one; the operations of different threads interleave.

* `step`        one operation; a thread stores once for every load;
* `tally`       what a history of operations amounts to: the stores, and `met`, how many stores of
                other threads fell between a load and its store, over all increments;
* `Agree`       what ties a counter to the tally of its history;
* `lost`        the counter never exceeds the number of stores, falls short of it by at most `met`,
                and is exact if and only if `met` is zero;
* `met_solo`    with one thread `met` is zero.
-/

namespace Race
open Runs

inductive Op (τ : Type*) where
  | load (t : τ)
  | store (t : τ)
deriving DecidableEq

/-- the value, and what the threads that have not stored yet have loaded -/
structure Counter (τ : Type*) where
  value : Nat := 0
  loaded : τ → Option Nat := fun _ => none

/-- the stores so far, those other threads made since a thread's last load, and the sum of the
latter over all stores -/
structure Tally (τ : Type*) where
  stores : Nat := 0
  since : τ → Nat := fun _ => 0
  met : Nat := 0

section
variable {τ : Type*}

def Op.thread : Op τ → τ
  | .load t | .store t => t

/-- a thread holds `v`, and its store would be the next one -/
structure Holds (n : Tally τ) (c : Counter τ) (t : τ) (v : Nat) : Prop where
  le : v + n.since t ≤ n.stores
  bound : n.stores ≤ v + n.since t + n.met
  fresh : n.since t = 0 → v = c.value

structure Agree (n : Tally τ) (c : Counter τ) : Prop where
  le : c.value ≤ n.stores
  bound : n.stores ≤ c.value + n.met
  lost : n.met ≠ 0 → c.value < n.stores
  holds : ∀ t v, c.loaded t = some v → Holds n c t v

theorem Agree.start : Agree ({} : Tally τ) {} where
  le := Nat.le_refl 0
  bound := Nat.le_refl 0
  lost h := absurd rfl h
  holds _ _ h := nomatch h

end

section
variable {τ : Type*} [DecidableEq τ]

def step (c : Counter τ) : Op τ → Option (Counter τ)
  | .load t =>
    match c.loaded t with
    | some _ => none
    | none => some { c with loaded := Function.update c.loaded t (some c.value) }
  | .store t =>
    (c.loaded t).map fun v => { value := v + 1, loaded := Function.update c.loaded t none }

def Tally.next (n : Tally τ) : Op τ → Tally τ
  | .load t => { n with since := Function.update n.since t 0 }
  | .store t =>
    { stores := n.stores + 1
      since := fun u => if u = t then n.since u else n.since u + 1
      met := n.met + n.since t }

def tally (l : List (Op τ)) : Tally τ := l.foldl Tally.next {}

@[simp] theorem tally_snoc (l : List (Op τ)) (o : Op τ) :
    tally (l ++ [o]) = (tally l).next o := by
  rw [tally, List.foldl_append]
  rfl

/-- what one operation does, in terms of the operation -/
theorem step_load {c c' : Counter τ} {t : τ} (h : step c (.load t) = some c') :
    c.loaded t = none ∧ c' = { c with loaded := Function.update c.loaded t (some c.value) } := by
  simp only [step] at h
  split at h
  · cases h
  · rename_i hn
    exact ⟨hn, (Option.some.inj h).symm⟩

theorem step_store {c c' : Counter τ} {t : τ} (h : step c (.store t) = some c') :
    ∃ v, c.loaded t = some v ∧
      c' = { value := v + 1, loaded := Function.update c.loaded t none } := by
  obtain ⟨v, hv, hc⟩ := Option.map_eq_some_iff.mp h
  exact ⟨v, hv, hc.symm⟩

variable {n : Tally τ} {c c' : Counter τ} {t : τ}

theorem Agree.load (h : Agree n c) (hs : step c (.load t) = some c') :
    Agree (n.next (.load t)) c' := by
  obtain ⟨_, rfl⟩ := step_load hs
  refine ⟨h.le, h.bound, h.lost, ?_⟩
  intro u v hv
  by_cases hu : u = t
  · subst hu
    have hv' : c.value = v := by simpa using hv
    have hzero : (n.next (.load u)).since u = 0 := Function.update_self u 0 n.since
    refine ⟨?_, ?_, fun _ => hv'.symm⟩
    · rw [hzero, ← hv']
      exact h.le
    · rw [hzero, ← hv']
      exact h.bound
  · have hold : Holds n c u v := h.holds u v (by simpa [Function.update_of_ne hu] using hv)
    have hsame : (n.next (.load t)).since u = n.since u := Function.update_of_ne hu 0 n.since
    refine ⟨?_, ?_, ?_⟩
    · rw [hsame]
      exact hold.le
    · rw [hsame]
      exact hold.bound
    · rw [hsame]
      exact hold.fresh

theorem Agree.store (h : Agree n c) (hs : step c (.store t) = some c') :
    Agree (n.next (.store t)) c' := by
  obtain ⟨v, hv, rfl⟩ := step_store hs
  have hold := h.holds t v hv
  have hle := hold.le
  have hbound := hold.bound
  refine ⟨?_, ?_, ?_, ?_⟩
  · show v + 1 ≤ n.stores + 1
    omega
  · show n.stores + 1 ≤ v + 1 + (n.met + n.since t)
    omega
  · -- either this increment met a store, or the counter was short before
    intro hmet
    show v + 1 < n.stores + 1
    by_cases hs0 : n.since t = 0
    · have hmet' : n.met + n.since t ≠ 0 := hmet
      have hshort := h.lost (by omega)
      have hval := hold.fresh hs0
      omega
    · omega
  · intro u w hw
    have hu : u ≠ t := by
      rintro rfl
      simp at hw
    have hother := h.holds u w (by simpa [Function.update_of_ne hu] using hw)
    have hsince : (n.next (.store t)).since u = n.since u + 1 := if_neg hu
    have hle' := hother.le
    have hbound' := hother.bound
    refine ⟨?_, ?_, ?_⟩
    · rw [hsince]
      show w + (n.since u + 1) ≤ n.stores + 1
      omega
    · rw [hsince]
      show n.stores + 1 ≤ w + (n.since u + 1) + (n.met + n.since t)
      omega
    · rw [hsince]
      exact fun h0 => absurd h0 (Nat.succ_ne_zero _)

theorem agree_run {l : List (Op τ)} (h : run step {} l = some c) : Agree (tally l) c := by
  refine hist_run (I := fun l c => Agree (tally l) c) Agree.start ?_ h
  intro l c o c' hc hs
  show Agree (tally (l ++ [o])) c'
  rw [tally_snoc]
  cases o with
  | load t => exact hc.load hs
  | store t => exact hc.store hs

/-- **Lost updates.**  The counter never exceeds the number of stores, falls short of it by at most
the stores that fell into increments of other threads, and is exact if and only if there were none.
-/
theorem lost {l : List (Op τ)} (h : run step {} l = some c) :
    c.value ≤ (tally l).stores ∧ (tally l).stores ≤ c.value + (tally l).met ∧
      (c.value = (tally l).stores ↔ (tally l).met = 0) := by
  have ha := agree_run h
  have hbound := ha.bound
  refine ⟨ha.le, hbound, ?_, ?_⟩
  · intro heq
    by_contra hne
    exact absurd heq (Nat.ne_of_lt (ha.lost hne))
  · intro h0
    exact Nat.le_antisymm ha.le (by rw [h0] at hbound; exact hbound)

/-- **one thread alone meets no store** -/
theorem met_solo {l : List (Op τ)} (h : ∀ o ∈ l, o.thread = t) :
    (tally l).met = 0 ∧ (tally l).since t = 0 := by
  induction l using List.reverseRecOn with
  | nil => exact ⟨rfl, rfl⟩
  | append_singleton l o ih =>
    obtain ⟨hmet, hsince⟩ := ih fun p hp => h p (List.mem_append_left _ hp)
    have ho : o.thread = t := h o (List.mem_append_right _ (List.mem_singleton.mpr rfl))
    rw [tally_snoc]
    cases o with
    | load u => exact ⟨hmet, by rw [show u = t from ho]; exact Function.update_self t 0 _⟩
    | store u =>
      obtain rfl : u = t := ho
      refine ⟨?_, ?_⟩
      · show (tally l).met + (tally l).since u = 0
        rw [hmet, hsince]
      · show (if u = u then (tally l).since u else (tally l).since u + 1) = 0
        rw [if_pos rfl]
        exact hsince

end

end Race
