import Mathlib.Algebra.Group.Nat.Defs
import Mathlib.Tactic.Common

/-!
# A counter that is reported in differences

A 32-bit counter runs on.  A report prints its difference to a baseline, and moves the baseline
afterwards: either to the sample that was printed, or to the counter as it is by then.

* `Words`            the machine words of one counter, and `Words.op` on them;
* `Meter`            the same in unbounded numbers, with the windows that were printed; every sample
                     carries a stamp of its moment;
* `Shows`            the words show the meter modulo `2 ^ 32`;
* `Chained`          windows of which each begins where the one before it ended: they partition the
                     events;
* `Settled`          the windows so far are chained, and the next one will go on where they end;
* `samples`          what was printed, the start before it: a report is over the time between two of
                     these;
* `Paced`            a clock of the stamps advances by `p` from one printed sample to the next;
* `Tallied`          a difference falls short of the increments in its time by those that were lost.
-/

/-- the number of increments at some moment, and a stamp of it -/
structure Meter.Sample (τ : Type*) where
  events : Nat
  stamp : τ
deriving DecidableEq

/-- what a printed difference was taken between -/
structure Meter.Window (τ : Type*) where
  base : Meter.Sample τ
  read : Meter.Sample τ
deriving DecidableEq

/-- the increments of a counter, the last sample, the baseline, and the windows printed so far -/
structure Meter (τ : Type*) where
  total : Nat
  cur : Meter.Sample τ
  base : Meter.Sample τ
  windows : List (Meter.Window τ)

namespace Meter

/-- what a report does with one counter -/
inductive Op where
  | sample
  | report                       -- prints the difference of the sample to the baseline
  | save                         -- the baseline becomes the sample
  | sampleReport                 -- prints the difference of the counter to the baseline
  | sampleSave                   -- the baseline becomes the counter
deriving DecidableEq

/-- what a report has to do with one counter -/
def Whole (l : List Op) : Prop :=
  l = [.sample, .report, .save] ∨ l = [.sampleReport, .sampleSave]

/-- what is left to do at some point of a report -/
inductive Left : List Op → Prop where
  | sample : Left [.sample, .report, .save]
  | report : Left [.report, .save]
  | save : Left [.save]
  | sampleReport : Left [.sampleReport, .sampleSave]
  | sampleSave : Left [.sampleSave]
  | done : Left []

theorem Whole.left {l : List Op} : Whole l → Left l
  | .inl h => h ▸ .sample
  | .inr h => h ▸ .sampleReport

theorem Left.tail {o : Op} {l : List Op} (h : Left (o :: l)) : Left l := by
  cases h with
  | sample => exact .report
  | report => exact .save
  | save => exact .done
  | sampleReport => exact .sampleSave
  | sampleSave => exact .done

theorem Left.of_suffix {l l' : List Op} (h : Left l) (hl : l' <:+ l) : Left l' := by
  obtain ⟨l'', rfl⟩ := hl
  induction l'' with
  | nil => exact h
  | cons o l'' ih => exact ih h.tail

/-- only the baseline is left to be read when nothing is left to be printed -/
theorem Left.head_sampleSave {l : List Op} (h : Left l) :
    l.head? = some .sampleSave ↔ .sampleReport ∉ l ∧ .sampleSave ∈ l := by
  cases h <;> decide

/-! ## the machine words -/

structure Words where
  value : UInt32
  cur : UInt32
  base : UInt32
  printed : List UInt32

def Words.op (w : Words) : Op → Words
  | .sample => { w with cur := w.value }
  | .report => { w with printed := w.printed ++ [w.cur - w.base] }
  | .save => { w with base := w.cur }
  | .sampleReport => { w with printed := w.printed ++ [w.value - w.base] }
  | .sampleSave => { w with base := w.value }

/-- the sum of machine words -/
def sumWords : List UInt32 → UInt32
  | [] => 0
  | d :: ds => d + sumWords ds

/-! ## the meter -/

section
variable {τ : Type*}

def Window.size (x : Window τ) : Nat := x.read.events - x.base.events

def start (t : τ) : Meter τ := ⟨0, ⟨0, t⟩, ⟨0, t⟩, []⟩

def inc (m : Meter τ) : Meter τ := { m with total := m.total + 1 }

def op (m : Meter τ) (t : τ) : Op → Meter τ
  | .sample => { m with cur := ⟨m.total, t⟩ }
  | .report => { m with windows := m.windows ++ [⟨m.base, m.cur⟩] }
  | .save => { m with base := m.cur }
  | .sampleReport => { m with windows := m.windows ++ [⟨m.base, ⟨m.total, t⟩⟩] }
  | .sampleSave => { m with base := ⟨m.total, t⟩ }

/-- no sample is ahead of the counter, and a sample that is about to be printed is not behind the
baseline -/
structure Ordered (m : Meter τ) (l : List Op) : Prop where
  base_le : m.base.events ≤ m.total
  cur_le : m.cur.events ≤ m.total
  base_le_cur : l.head? = some .report → m.base.events ≤ m.cur.events

variable {m : Meter τ} {w : Words} {o : Op} {l : List Op} {t : τ}

theorem Ordered.start (t : τ) : (start t).Ordered [] := ⟨Nat.le_refl 0, Nat.le_refl 0, nofun⟩

theorem Ordered.inc (h : m.Ordered l) : m.inc.Ordered l :=
  ⟨Nat.le_succ_of_le h.base_le, Nat.le_succ_of_le h.cur_le, h.base_le_cur⟩

theorem Ordered.begin (hl : Whole l) (h : m.Ordered []) : m.Ordered l := by
  obtain rfl | rfl := hl
  · exact ⟨h.base_le, h.cur_le, nofun⟩
  · exact ⟨h.base_le, h.cur_le, nofun⟩

theorem Ordered.op (hl : Left (o :: l)) (h : m.Ordered (o :: l)) : (m.op t o).Ordered l := by
  cases hl with
  | sample => exact ⟨h.base_le, Nat.le_refl _, fun _ => h.base_le⟩
  | report => exact ⟨h.base_le, h.cur_le, nofun⟩
  | save => exact ⟨h.cur_le, h.cur_le, nofun⟩
  | sampleReport => exact ⟨h.base_le, h.cur_le, nofun⟩
  | sampleSave => exact ⟨Nat.le_refl _, h.cur_le, nofun⟩

/-! ## the words show the meter -/

structure Shows (m : Meter τ) (w : Words) : Prop where
  value : w.value = UInt32.ofNat m.total
  cur : w.cur = UInt32.ofNat m.cur.events
  base : w.base = UInt32.ofNat m.base.events
  printed : w.printed = m.windows.map fun x => UInt32.ofNat x.size

theorem Shows.inc (h : m.Shows w) : m.inc.Shows { w with value := w.value + 1 } := by
  refine ⟨?_, h.cur, h.base, h.printed⟩
  show w.value + 1 = UInt32.ofNat (m.total + 1)
  rw [UInt32.ofNat_add, h.value]
  rfl

/-- **An operation prints the size of the window, wrapped round or not.** -/
theorem Shows.op (ho : m.Ordered (o :: l)) (h : m.Shows w) : (m.op t o).Shows (w.op o) := by
  have hprint : ∀ (x : Window τ) (d : UInt32), d = UInt32.ofNat x.size →
      w.printed ++ [d] = (m.windows ++ [x]).map fun x => UInt32.ofNat x.size := by
    rintro x _ rfl
    rw [List.map_append, h.printed]
    rfl
  cases o with
  | sample => exact ⟨h.value, h.value, h.base, h.printed⟩
  | report =>
    refine ⟨h.value, h.cur, h.base, hprint _ _ ?_⟩
    rw [h.cur, h.base, Window.size, UInt32.ofNat_sub (ho.base_le_cur rfl)]
  | save => exact ⟨h.value, h.cur, h.cur, h.printed⟩
  | sampleReport =>
    refine ⟨h.value, h.cur, h.base, hprint _ _ ?_⟩
    rw [h.value, h.base, Window.size, UInt32.ofNat_sub ho.base_le]
  | sampleSave => exact ⟨h.value, h.cur, h.value, h.printed⟩

/-! ## windows that partition the events -/

/-- each window begins where the one before it ended, the first one at `a` -/
def Chained : Nat → List (Window τ) → Prop
  | _, [] => True
  | a, x :: xs => x.base.events = a ∧ a ≤ x.read.events ∧ Chained x.read.events xs

/-- where the last window ended, or `a` -/
def endOf : Nat → List (Window τ) → Nat
  | a, [] => a
  | _, x :: xs => endOf x.read.events xs

variable {a : Nat} {x : Window τ} {xs : List (Window τ)}

theorem endOf_snoc (a : Nat) (xs : List (Window τ)) (x : Window τ) :
    endOf a (xs ++ [x]) = x.read.events := by
  induction xs generalizing a with
  | nil => rfl
  | cons y xs ih => exact ih y.read.events

theorem Chained.snoc (h : Chained a xs) (hb : x.base.events = endOf a xs)
    (hr : x.base.events ≤ x.read.events) : Chained a (xs ++ [x]) := by
  induction xs generalizing a with
  | nil =>
    have hb : x.base.events = a := hb
    exact ⟨hb, by omega, True.intro⟩
  | cons y xs ih => exact ⟨h.1, h.2.1, ih h.2.2 hb⟩

theorem Chained.le_base (h : Chained a xs) {k : Nat} (hk : xs[k]? = some x) :
    a ≤ x.base.events := by
  induction xs generalizing a k with
  | nil => cases hk
  | cons y xs ih =>
    cases k with
    | zero =>
      obtain rfl := Option.some.inj hk
      exact Nat.le_of_eq h.1.symm
    | succ k => exact Nat.le_trans h.2.1 (ih h.2.2 hk)

/-- **Every event before the end is in exactly one window.** -/
theorem Chained.existsUnique (h : Chained a xs) {n : Nat} (ha : a ≤ n) (hn : n < endOf a xs) :
    ∃! k : Nat, ∃ x : Window τ, xs[k]? = some x ∧ x.base.events ≤ n ∧ n < x.read.events := by
  induction xs generalizing a with
  | nil => exact absurd hn (Nat.not_lt.mpr ha)
  | cons y xs ih =>
    by_cases hy : n < y.read.events
    · refine ⟨0, ⟨y, rfl, by have hb := h.1; omega, hy⟩, ?_⟩
      rintro k ⟨x, hk, hb, _⟩
      cases k with
      | zero => rfl
      | succ k =>
        have hle : y.read.events ≤ x.base.events := h.2.2.le_base hk
        omega
    · obtain ⟨k, ⟨x, hk, hx⟩, huniq⟩ := ih h.2.2 (Nat.not_lt.mp hy) hn
      refine ⟨k + 1, ⟨x, hk, hx⟩, ?_⟩
      rintro j ⟨x', hj, hx'⟩
      cases j with
      | zero =>
        obtain rfl := Option.some.inj hj
        exact absurd hx'.2 hy
      | succ j => rw [huniq j ⟨x', hj, hx'⟩]

/-- **The sizes of the first windows add up to the end of the last of them.** -/
theorem Chained.sum_take (h : Chained a xs) {k : Nat} (hk : xs[k]? = some x) :
    sumWords ((xs.take (k + 1)).map fun x => UInt32.ofNat x.size) =
      UInt32.ofNat x.read.events - UInt32.ofNat a := by
  induction xs generalizing a k with
  | nil => cases hk
  | cons y xs ih =>
    have hsize : UInt32.ofNat y.size = UInt32.ofNat y.read.events - UInt32.ofNat a := by
      rw [Window.size, h.1, UInt32.ofNat_sub h.2.1]
    rw [List.take_succ_cons, List.map_cons, sumWords, hsize]
    cases k with
    | zero =>
      obtain rfl := Option.some.inj hk
      rw [List.take_zero, List.map_nil, sumWords]
      exact UInt32.add_zero _
    | succ k =>
      rw [ih h.2.2 hk]
      grind

/-! ## windows that go on -/

/-- where the next window will begin, with `l` left of this report -/
def next (m : Meter τ) : List Op → Nat
  | .save :: _ => m.cur.events
  | .sampleSave :: _ => m.total
  | _ => m.base.events

/-- the windows are chained, and the next one will begin where they end -/
structure Settled (m : Meter τ) (l : List Op) : Prop where
  chained : Chained 0 m.windows
  next_eq : m.next l = endOf 0 m.windows

theorem Settled.start (t : τ) : (start t).Settled [] := ⟨True.intro, rfl⟩

theorem Settled.begin (hl : Whole l) (h : m.Settled []) : m.Settled l := by
  obtain rfl | rfl := hl
  · exact ⟨h.chained, h.next_eq⟩
  · exact ⟨h.chained, h.next_eq⟩

theorem Settled.op (hl : Left (o :: l)) (ho : m.Ordered (o :: l)) (h : m.Settled (o :: l)) :
    (m.op t o).Settled l := by
  have hsnoc : ∀ r : Sample τ, m.base.events = endOf 0 m.windows → m.base.events ≤ r.events →
      Chained 0 (m.windows ++ [⟨m.base, r⟩]) ∧
        endOf 0 (m.windows ++ [⟨m.base, r⟩]) = r.events := fun r hb hr =>
    ⟨h.chained.snoc hb hr, endOf_snoc 0 m.windows ⟨m.base, r⟩⟩
  cases hl with
  | sample => exact ⟨h.chained, h.next_eq⟩
  | report =>
    obtain ⟨hc, he⟩ := hsnoc m.cur h.next_eq (ho.base_le_cur rfl)
    exact ⟨hc, he.symm⟩
  | save => exact ⟨h.chained, h.next_eq⟩
  | sampleReport =>
    obtain ⟨hc, he⟩ := hsnoc ⟨m.total, t⟩ h.next_eq ho.base_le
    exact ⟨hc, he.symm⟩
  | sampleSave => exact ⟨h.chained, h.next_eq⟩

/-- **An increment is lost exactly if it comes after the report and before a baseline that reads the
counter again.** -/
theorem settled_inc_iff (h : m.Settled l) : m.inc.Settled l ↔ l.head? ≠ some .sampleSave := by
  constructor
  · intro hinc hl
    obtain ⟨_, rfl⟩ : ∃ l', l = .sampleSave :: l' := by
      cases l with
      | nil => cases hl
      | cons o l => exact ⟨l, by rw [Option.some.inj hl]⟩
    have hbefore : m.total = endOf 0 m.windows := h.next_eq
    have hafter : m.total + 1 = endOf 0 m.windows := hinc.next_eq
    omega
  · intro hl
    refine ⟨h.chained, ?_⟩
    rw [show m.inc.windows = m.windows from rfl, ← h.next_eq]
    unfold next
    split
    · rfl
    · exact absurd rfl hl
    · rfl

/-! ## from one printed sample to the next -/

/-- the samples that were printed, after the start at `t` -/
def samples (t : τ) (m : Meter τ) : List (Sample τ) := ⟨0, t⟩ :: m.windows.map Window.read

/-- the sample printed last, or `a` -/
def lastOf : Sample τ → List (Window τ) → Sample τ
  | a, [] => a
  | _, x :: xs => lastOf x.read xs

/-- every window is in the relation `R` to the sample printed before it, the first one to `a` -/
def Linked (R : Sample τ → Window τ → Prop) : Sample τ → List (Window τ) → Prop
  | _, [] => True
  | a, x :: xs => R a x ∧ Linked R x.read xs

theorem lastOf_snoc (s : Sample τ) (xs : List (Window τ)) (x : Window τ) :
    lastOf s (xs ++ [x]) = x.read := by
  induction xs generalizing s with
  | nil => rfl
  | cons y xs ih => exact ih y.read

section
variable {R : Sample τ → Window τ → Prop} {s : Sample τ}

theorem Linked.snoc (h : Linked R s xs) (hx : R (lastOf s xs) x) : Linked R s (xs ++ [x]) := by
  induction xs generalizing s with
  | nil => exact ⟨hx, True.intro⟩
  | cons y xs ih => exact ⟨h.1, ih h.2 hx⟩

/-- the `k`-th window and the sample before it -/
theorem Linked.get (h : Linked R s xs) {k : Nat} {b : Sample τ}
    (hk : (s :: xs.map Window.read)[k]? = some b) (hx : xs[k]? = some x) : R b x := by
  induction xs generalizing s k with
  | nil => cases hx
  | cons y xs ih =>
    cases k with
    | zero =>
      obtain rfl := Option.some.inj hk
      obtain rfl := Option.some.inj hx
      exact h.1
    | succ k => exact ih h.2 hk hx

/-- two consecutive samples are those before and of one window -/
theorem Linked.samples (h : Linked R ⟨0, t⟩ m.windows) {k : Nat} {a b : Sample τ}
    (ha : (m.samples t)[k]? = some a) (hb : (m.samples t)[k + 1]? = some b) :
    ∃ x, m.windows[k]? = some x ∧ x.read = b ∧ R a x := by
  have hread : (m.windows[k]?).map Window.read = some b := by
    rw [← List.getElem?_map]
    exact hb
  obtain ⟨x, hx, hr⟩ := Option.map_eq_some_iff.mp hread
  exact ⟨x, hx, hr, h.get ha hx⟩

end

/-! ## samples at equal distances -/

/-- a clock has come to `n` and advances by `p` from sample to sample -/
structure Paced (clock : τ → Nat) (p n : Nat) (s : Sample τ) (m : Meter τ) (l : List Op) : Prop where
  windows : Linked (fun a x => clock x.read.stamp = clock a.stamp + p) s m.windows
  now : match l with
    | .sample :: _ | .sampleReport :: _ => p ∣ n ∧ clock (lastOf s m.windows).stamp + p = n
    | .report :: _ =>
      p ∣ n ∧ clock (lastOf s m.windows).stamp + p = n ∧ clock m.cur.stamp = n
    | _ => clock (lastOf s m.windows).stamp = n / p * p

variable {clock : τ → Nat} {p n : Nat} {s : Sample τ}

theorem Paced.inc (h : m.Paced clock p n s l) : m.inc.Paced clock p n s l := ⟨h.windows, h.now⟩

theorem Paced.start (ht : clock t = 0) : (start t).Paced clock p 0 ⟨0, t⟩ [] := by
  refine ⟨True.intro, ?_⟩
  show clock t = 0 / p * p
  rw [ht, Nat.zero_div, Nat.zero_mul]

/-- a tick without a report -/
theorem Paced.tick (h : m.Paced clock p n s []) (hp : ¬ p ∣ n + 1) :
    m.Paced clock p (n + 1) s [] := by
  refine ⟨h.windows, ?_⟩
  show clock (lastOf s m.windows).stamp = (n + 1) / p * p
  rw [Nat.succ_div_of_not_dvd hp]
  exact h.now

/-- a tick with a report -/
theorem Paced.begin (hl : Whole l) (h : m.Paced clock p n s []) (hp : p ∣ n + 1) :
    m.Paced clock p (n + 1) s l := by
  have hb : clock (lastOf s m.windows).stamp + p = n + 1 := by
    have hdiv : clock (lastOf s m.windows).stamp = n / p * p := h.now
    have hsucc : (n + 1) / p * p = n / p * p + p := by
      rw [Nat.succ_div_of_dvd hp, Nat.succ_mul]
    rw [hdiv, ← hsucc]
    exact Nat.div_mul_cancel hp
  obtain rfl | rfl := hl
  · exact ⟨h.windows, hp, hb⟩
  · exact ⟨h.windows, hp, hb⟩

theorem Paced.op (hl : Left (o :: l)) (ht : clock t = n) (h : m.Paced clock p n s (o :: l)) :
    (m.op t o).Paced clock p n s l := by
  -- a report makes its sample the last one
  have hsnoc : ∀ r : Sample τ, p ∣ n → clock (lastOf s m.windows).stamp + p = n →
      clock r.stamp = n →
      Linked (fun a x => clock x.read.stamp = clock a.stamp + p) s (m.windows ++ [⟨m.base, r⟩]) ∧
        clock (lastOf s (m.windows ++ [⟨m.base, r⟩])).stamp = n / p * p := by
    intro r hn hb hr
    refine ⟨h.windows.snoc (hr.trans hb.symm), ?_⟩
    rw [lastOf_snoc, Nat.div_mul_cancel hn]
    exact hr
  cases hl with
  | sample => exact ⟨h.windows, h.now.1, h.now.2, ht⟩
  | report =>
    obtain ⟨hw, hlast⟩ := hsnoc m.cur h.now.1 h.now.2.1 h.now.2.2
    exact ⟨hw, hlast⟩
  | save => exact ⟨h.windows, h.now⟩
  | sampleReport =>
    obtain ⟨hw, hlast⟩ := hsnoc ⟨m.total, t⟩ h.now.1 h.now.2 ht
    exact ⟨hw, hlast⟩
  | sampleSave => exact ⟨h.windows, h.now⟩

/-! ## increments in no window -/

/-- of the increments after `a`, those that `lost` counts come before the baseline of `x` -/
def Short (lost : τ → Nat) (a : Sample τ) (x : Window τ) : Prop :=
  ∃ d, x.base.events = a.events + d ∧ lost x.read.stamp = lost a.stamp + d ∧
    x.base.events ≤ x.read.events

/-- the increments lost so far are `n`, and every window falls short by those of its time -/
structure Tallied (lost : τ → Nat) (n : Nat) (s : Sample τ) (m : Meter τ) (l : List Op) : Prop where
  windows : Linked (Short lost) s m.windows
  now : ∃ d, m.next l = (lastOf s m.windows).events + d ∧
    n = lost (lastOf s m.windows).stamp + d
  cur : l.head? = some .report → lost m.cur.stamp = n

variable {lost : τ → Nat}

theorem Tallied.start (ht : lost t = 0) : (start t).Tallied lost 0 ⟨0, t⟩ [] :=
  ⟨True.intro, ⟨0, rfl, ht.symm⟩, nofun⟩

theorem Tallied.begin (hl : Whole l) (h : m.Tallied lost n s []) : m.Tallied lost n s l := by
  obtain rfl | rfl := hl
  · exact ⟨h.windows, h.now, nofun⟩
  · exact ⟨h.windows, h.now, nofun⟩

theorem Tallied.op (hl : Left (o :: l)) (ho : m.Ordered (o :: l)) (ht : lost t = n)
    (h : m.Tallied lost n s (o :: l)) : (m.op t o).Tallied lost n s l := by
  obtain ⟨d, hnext, hn⟩ := h.now
  have hsnoc : ∀ r : Sample τ, m.base.events = (lastOf s m.windows).events + d →
      m.base.events ≤ r.events → lost r.stamp = n →
      Linked (Short lost) s (m.windows ++ [⟨m.base, r⟩]) ∧
        ∃ d, r.events = (lastOf s (m.windows ++ [⟨m.base, r⟩])).events + d ∧
          n = lost (lastOf s (m.windows ++ [⟨m.base, r⟩])).stamp + d := by
    intro r hb hle hr
    refine ⟨h.windows.snoc ⟨d, hb, hr.trans hn, hle⟩, 0, ?_, ?_⟩
    · rw [lastOf_snoc]
      rfl
    · rw [lastOf_snoc]
      exact hr.symm
  cases hl with
  | sample => exact ⟨h.windows, ⟨d, hnext, hn⟩, fun _ => ht⟩
  | report =>
    obtain ⟨hw, hnow⟩ := hsnoc m.cur hnext (ho.base_le_cur rfl) (h.cur rfl)
    exact ⟨hw, hnow, nofun⟩
  | save => exact ⟨h.windows, ⟨d, hnext, hn⟩, nofun⟩
  | sampleReport =>
    obtain ⟨hw, hnow⟩ := hsnoc ⟨m.total, t⟩ hnext ho.base_le ht
    exact ⟨hw, hnow, nofun⟩
  | sampleSave => exact ⟨h.windows, ⟨d, hnext, hn⟩, nofun⟩

/-- an increment is lost before a baseline that reads the counter again, and only there -/
theorem Tallied.inc (h : m.Tallied lost n s l) :
    m.inc.Tallied lost (n + if l.head? = some .sampleSave then 1 else 0) s l := by
  obtain ⟨d, hnext, hn⟩ := h.now
  cases l with
  | nil => exact ⟨h.windows, ⟨d, hnext, hn⟩, nofun⟩
  | cons o l =>
    cases o with
    | sampleSave =>
      refine ⟨h.windows, ⟨d + 1, ?_, ?_⟩, nofun⟩
      · exact congrArg (· + 1) hnext
      · exact congrArg (· + 1) hn
    | report => exact ⟨h.windows, ⟨d, hnext, hn⟩, h.cur⟩
    | sample | save | sampleReport => exact ⟨h.windows, ⟨d, hnext, hn⟩, nofun⟩

/-- **What a report prints is what the counter counted since the report before it if and only if the
number of increments lost in that time is no more than a wrap-around.** -/
theorem Shows.printed_iff (hs : m.Shows w) (h : m.Tallied lost n ⟨0, t⟩ l) {k : Nat}
    {a b : Sample τ} (ha : (m.samples t)[k]? = some a) (hb : (m.samples t)[k + 1]? = some b) :
    w.printed[k]? = some (UInt32.ofNat (b.events - a.events)) ↔
      2 ^ 32 ∣ lost b.stamp - lost a.stamp := by
  obtain ⟨x, hx, rfl, d, hbase, hlost, hle⟩ := h.windows.samples ha hb
  have hprinted : w.printed[k]? = some (UInt32.ofNat x.size) := by
    rw [hs.printed, List.getElem?_map, hx]
    rfl
  have hsize : x.read.events - a.events = x.size + d := by
    unfold Window.size
    omega
  rw [hprinted, hlost, hsize, Nat.add_sub_cancel_left, Option.some.injEq, ← UInt32.toNat_inj,
    UInt32.toNat_ofNat', UInt32.toNat_ofNat']
  omega

end

end Meter
