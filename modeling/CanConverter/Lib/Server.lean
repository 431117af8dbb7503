import Mathlib.Data.List.Basic
import Mathlib.Tactic.Common

/-!
# A server with a queue of requests

`step s a` is the state after the request `a`, and the reply to it if it gets one.  For a queue
that the server works off in order, `after` and `due` are the state it will reach and the replies
still to come.
-/

namespace Server
variable {σ α β : Type*} (step : σ → α → σ × Option β)

/-- the state after a queue of requests -/
def after : σ → List α → σ
  | s, [] => s
  | s, a :: l => after (step s a).1 l

/-- the replies to a queue of requests -/
def due : σ → List α → List β
  | _, [] => []
  | s, a :: l => (step s a).2.toList ++ due (step s a).1 l

variable {step}

theorem after_cons (s : σ) (a : α) (l : List α) :
    after step s (a :: l) = after step (step s a).1 l := rfl

theorem due_cons (s : σ) (a : α) (l : List α) :
    due step s (a :: l) = (step s a).2.toList ++ due step (step s a).1 l := rfl

theorem after_snoc (s : σ) (l : List α) (a : α) :
    after step s (l ++ [a]) = (step (after step s l) a).1 := by
  induction l generalizing s with
  | nil => rfl
  | cons b l ih => rw [List.cons_append, after_cons, ih, after_cons]

/-- a request at the end of the queue is answered last -/
theorem due_snoc (s : σ) (l : List α) (a : α) :
    due step s (l ++ [a]) = due step s l ++ (step (after step s l) a).2.toList := by
  induction l generalizing s with
  | nil => exact List.append_nil _
  | cons b l ih => rw [List.cons_append, due_cons, ih, due_cons, after_cons, List.append_assoc]

end Server
