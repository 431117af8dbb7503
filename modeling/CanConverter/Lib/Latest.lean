import Mathlib.Data.List.Basic
import Mathlib.Tactic.Common

/-!
# The latest value of a kind in a history

`lastOf p l` is the value that `p` picked from the last entry of `l` it accepts.  A register that
is overwritten by every accepted entry and carries a flag "ever written" refines it (`Holds`).
-/

namespace Latest
variable {α β : Type*}

/-- the value picked by `p` from the last entry of the history it accepts -/
def lastOf (p : β → Option α) : List β → Option α
  | [] => none
  | b :: l => (lastOf p l).or (p b)

@[simp] theorem lastOf_nil (p : β → Option α) : lastOf p [] = none := rfl

theorem lastOf_snoc (p : β → Option α) (l : List β) (b : β) :
    lastOf p (l ++ [b]) = (p b).or (lastOf p l) := by
  induction l with
  | nil => simp [lastOf]
  | cons c l ih => rw [List.cons_append, lastOf, ih, lastOf, Option.or_assoc]

theorem lastOf_append (p : β → Option α) (l l' : List β) :
    lastOf p (l ++ l') = (lastOf p l').or (lastOf p l) := by
  induction l with
  | nil => rw [List.nil_append, lastOf_nil, Option.or_none]
  | cons c l ih => rw [List.cons_append, lastOf, ih, lastOf, Option.or_assoc]

/-- the register `v` with the flag `valid` holds the optional value `o` -/
def Holds (v : α) (valid : Bool) (o : Option α) : Prop :=
  valid = o.isSome ∧ ∀ a ∈ o, v = a

theorem Holds.none (v : α) : Holds v false none := ⟨rfl, fun _ h => nomatch h⟩
theorem Holds.some (v : α) : Holds v true (some v) := ⟨rfl, fun _ h => Option.some.inj h⟩

theorem Holds.toOption {v : α} {valid : Bool} {o : Option α} (h : Holds v valid o) :
    (if valid = true then .some v else .none) = o := by
  obtain ⟨h1, h2⟩ := h
  cases o with
  | none => rw [h1]; rfl
  | some a => rw [h1, h2 a rfl]; rfl

end Latest
