import Mathlib.Data.List.Perm.Basic
import Mathlib.Data.List.Nodup
import Mathlib.Data.List.Range
import Mathlib.Tactic.Common

/-!
# A conveyor: a queue, a hand and what has passed

Items are numbered in the order in which they are put.  The consumer takes the oldest item into its
hand and passes it on; a purge throws the queue away and leaves the hand alone.

* `Good`      every item is in exactly one place, and what passed, what is in the hand and what is
              queued stand in the order of the puts;
* `Stale`     what became of the items put before a purge: at most the one in the hand passes.
-/

structure Conveyor (α : Type*) where
  puts : List (Nat × α) := []
  queued : List (Nat × α) := []
  hand : Option (Nat × α) := none
  passed : List (Nat × α) := []
  purged : List (Nat × α) := []

namespace Conveyor
variable {α : Type*}

def put (c : Conveyor α) (a : α) : Conveyor α :=
  { c with
    puts := c.puts ++ [(c.puts.length, a)]
    queued := c.queued ++ [(c.puts.length, a)] }

def get (c : Conveyor α) : Conveyor α :=
  { c with hand := c.queued.head?, queued := c.queued.tail }

def pass (c : Conveyor α) : Conveyor α :=
  { c with hand := none, passed := c.passed ++ c.hand.toList }

def purge (c : Conveyor α) : Conveyor α :=
  { c with queued := [], purged := c.purged ++ c.queued }

/-- the items that have passed or may still do so -/
def line (c : Conveyor α) : List (Nat × α) := c.passed ++ (c.hand.toList ++ c.queued)

theorem head?_append_tail (l : List α) : l.head?.toList ++ l.tail = l := by
  cases l <;> rfl

theorem line_put (c : Conveyor α) (a : α) : (c.put a).line = c.line ++ [(c.puts.length, a)] := by
  simp only [line, put, List.append_assoc]

theorem line_get {c : Conveyor α} (h : c.hand = none) : c.get.line = c.line := by
  simp only [line, get, h, Option.toList_none, List.nil_append, head?_append_tail]

theorem line_pass (c : Conveyor α) : c.pass.line = c.line := by
  simp only [line, pass, Option.toList_none, List.nil_append, List.append_assoc]

theorem line_purge (c : Conveyor α) : c.line = c.purge.line ++ c.queued := by
  simp only [line, purge, List.append_nil, List.append_assoc]

/-- nothing is reordered, duplicated or lost -/
structure Good (c : Conveyor α) : Prop where
  serial : c.puts.map Prod.fst = List.range c.puts.length
  order : c.line.Sublist c.puts
  all : (c.line ++ c.purged).Perm c.puts

theorem Good.init : Good ({} : Conveyor α) := ⟨rfl, List.Sublist.refl _, List.Perm.refl _⟩

variable {c d : Conveyor α}

theorem Good.put (h : c.Good) (a : α) : (c.put a).Good := by
  refine ⟨?_, ?_, ?_⟩
  · show (c.puts ++ [(c.puts.length, a)]).map Prod.fst = List.range (c.puts ++ [_]).length
    rw [List.map_append, h.serial, List.length_append, List.length_singleton, List.range_succ]
    rfl
  · rw [line_put]
    exact h.order.append (List.Sublist.refl _)
  · rw [line_put, List.append_assoc]
    refine (List.Perm.append_left _ List.perm_append_comm).trans ?_
    rw [← List.append_assoc]
    exact h.all.append (List.Perm.refl _)

theorem Good.get (h : c.Good) (hc : c.hand = none) : c.get.Good :=
  ⟨h.serial, line_get hc ▸ h.order, line_get hc ▸ h.all⟩

theorem Good.pass (h : c.Good) : c.pass.Good :=
  ⟨h.serial, line_pass c ▸ h.order, line_pass c ▸ h.all⟩

theorem Good.purge (h : c.Good) : c.purge.Good := by
  have hline := line_purge c
  refine ⟨h.serial, ?_, ?_⟩
  · refine List.Sublist.trans ?_ h.order
    rw [hline]
    exact List.sublist_append_left _ _
  · have hall := h.all
    rw [hline, List.append_assoc] at hall
    exact (List.Perm.append_left _ List.perm_append_comm).trans hall

/-- every item passes at most once -/
theorem Good.nodup (h : c.Good) : (c.line.map Prod.fst).Nodup := by
  have hs : (c.line.map Prod.fst).Sublist (List.range c.puts.length) :=
    h.serial ▸ h.order.map Prod.fst
  exact List.nodup_range.sublist hs

/-- `c` is the state at a purge, `d` a later one: `new` has passed since, and all that may still
pass was in the hand or has been put since -/
structure Stale (c d : Conveyor α) (new : List (Nat × α)) : Prop where
  puts : c.puts.length ≤ d.puts.length
  passed : d.passed = c.passed ++ new
  only : ∀ m ∈ new ++ (d.hand.toList ++ d.queued), m ∈ c.hand.toList ∨ c.puts.length ≤ m.1

theorem Stale.init (c : Conveyor α) : Stale c c.purge [] := by
  refine ⟨Nat.le_refl _, (List.append_nil _).symm, fun m hm => .inl ?_⟩
  rwa [show [] ++ (c.purge.hand.toList ++ c.purge.queued) = c.hand.toList from
    List.append_nil _] at hm

variable {new : List (Nat × α)}

theorem Stale.put (h : Stale c d new) (a : α) : Stale c (d.put a) new := by
  refine ⟨?_, h.passed, fun m hm => ?_⟩
  · show c.puts.length ≤ (d.puts ++ [_]).length
    rw [List.length_append]
    exact Nat.le_add_right_of_le h.puts
  · have hm' : m ∈ (new ++ (d.hand.toList ++ d.queued)) ++ [(d.puts.length, a)] := by
      simpa only [Conveyor.put, List.append_assoc] using hm
    rcases List.mem_append.mp hm' with hm | hm
    · exact h.only m hm
    · rw [List.mem_singleton.mp hm]
      exact .inr h.puts

theorem Stale.get (h : Stale c d new) (hd : d.hand = none) : Stale c d.get new := by
  refine ⟨h.puts, h.passed, fun m hm => h.only m ?_⟩
  simpa only [Conveyor.get, hd, Option.toList_none, List.nil_append, head?_append_tail] using hm

theorem Stale.pass (h : Stale c d new) : Stale c d.pass (new ++ d.hand.toList) := by
  refine ⟨h.puts, ?_, fun m hm => h.only m ?_⟩
  · show d.passed ++ d.hand.toList = _
    rw [h.passed, List.append_assoc]
  · simpa only [Conveyor.pass, Option.toList_none, List.nil_append, List.append_assoc] using hm

theorem Stale.purge (h : Stale c d new) : Stale c d.purge new := by
  refine ⟨h.puts, h.passed, fun m hm => h.only m ?_⟩
  have hm' : m ∈ new ++ d.hand.toList := by
    simpa only [Conveyor.purge, List.append_nil] using hm
  rw [← List.append_assoc]
  exact List.mem_append_left _ hm'

end Conveyor
