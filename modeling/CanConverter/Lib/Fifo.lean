import Mathlib.Data.List.Basic
import Mathlib.Tactic.Common

/-!
# A bounded first-in first-out queue

`Fifo α cap` carries the bound on its length.  `put` fails on a full queue and leaves it alone,
`get` fails on an empty one; no operation blocks.
-/

/-- at most `cap` items, the oldest one at the head -/
structure Fifo (α : Type*) (cap : Nat) where
  items : List α
  le : items.length ≤ cap
deriving DecidableEq

namespace Fifo
variable {α : Type*} {cap : Nat}

def empty : Fifo α cap := ⟨[], Nat.zero_le cap⟩

def length (q : Fifo α cap) : Nat := q.items.length

def put (q : Fifo α cap) (a : α) : Option (Fifo α cap) :=
  if h : q.items.length < cap then some ⟨q.items ++ [a], by rw [List.length_append]; exact h⟩ else none

def get (q : Fifo α cap) : Option (α × Fifo α cap) :=
  match q with
  | ⟨[], _⟩ => none
  | ⟨a :: l, h⟩ => some (a, ⟨l, Nat.le_of_succ_le h⟩)

@[simp] theorem length_empty : (empty : Fifo α cap).length = 0 := rfl
@[simp] theorem items_empty : (empty : Fifo α cap).items = [] := rfl

theorem put_some {q r : Fifo α cap} {a : α} :
    q.put a = some r ↔ q.length < cap ∧ r.items = q.items ++ [a] := by
  unfold put length
  constructor
  · intro h
    split at h
    · rename_i hlt
      rw [Option.some.injEq] at h
      exact ⟨hlt, by rw [← h]⟩
    · cases h
  · rintro ⟨hlt, hr⟩
    rw [dif_pos hlt]
    cases r
    simpa using hr.symm

theorem put_none {q : Fifo α cap} {a : α} : q.put a = none ↔ cap ≤ q.length := by
  unfold put length
  split <;> simp only [reduceCtorEq, false_iff, true_iff] <;> omega

theorem length_put {q r : Fifo α cap} {a : α} (h : q.put a = some r) :
    r.length = q.length + 1 := by
  rw [length, (put_some.mp h).2, List.length_append]
  rfl

theorem get_some {q r : Fifo α cap} {a : α} : q.get = some (a, r) ↔ q.items = a :: r.items := by
  obtain ⟨l, hl⟩ := q
  obtain ⟨m, hm⟩ := r
  cases l with
  | nil => simp [get]
  | cons b l => simp [get]

theorem length_get {q r : Fifo α cap} {a : α} (h : q.get = some (a, r)) :
    q.length = r.length + 1 := by
  rw [length, get_some.mp h]
  rfl

end Fifo
