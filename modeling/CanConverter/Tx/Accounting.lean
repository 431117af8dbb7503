import CanConverter.Tx.Attribution

/-!
# The books of the TX thread

Every frame that leaves the queue is refused by `can_send`, counted, logged as an error, given up
after the timeout or still in progress (`every_frame_accounted`), in every interleaving of the
thread with the callbacks.

A token of `can_tx_done_sem` is worth one callback that has run and each wait uses up at most one,
so the thread is ahead of the driver by its timeouts only (`stop_and_wait`): a wait that times out
is the one way to a second frame in the driver and to a token left over.  Without timeouts every
callback falls into the wait for its own frame (`attributed_without_timeouts`).
-/

namespace CCU

/-- the frame is in the thread's hand -/
def TxPc.held {φ : Type} : TxPc φ → Nat
  | .canSend _ => 1
  | _ => 0

/-- the thread waits for `can_tx_done_sem` -/
def TxPc.waiting {φ : Type} : TxPc φ → Nat
  | .semTake _ => 1
  | _ => 0

/-- the thread has a token and looks at `can_tx_result` -/
def TxPc.judging {φ : Type} : TxPc φ → Nat
  | .testResult _ | .logError _ | .countOk _ => 1
  | _ => 0

def TxEv.isGet {φ : Type} : TxEv φ → Bool
  | .get _ => true
  | _ => false

def TxEv.isRefusal {φ : Type} : TxEv φ → Bool
  | .canSend ret => decide (ret ≠ 0)
  | _ => false

def TxEv.isTimeout {φ : Type} : TxEv φ → Bool
  | .semTimeout => true
  | _ => false

namespace TxThread
open Runs
variable {φ : Type} {s t : TxThread φ} {e : TxEv φ} {l : List (TxEv φ)}

/-- the frames taken, the frames refused and the waits given up, in the events `l` -/
structure Books (l : List (TxEv φ)) (s : TxThread φ) : Prop where
  taken : l.countP TxEv.isGet = s.handed.length + s.pc.held
  handed : s.handed.length = l.countP TxEv.isRefusal + s.accepted
  accepted : s.accepted = s.counted.length + s.errorsLogged.length + l.countP TxEv.isTimeout +
    (s.pc.waiting + s.pc.judging)
  ran : s.ran.length + s.due.length = s.accepted
  tokens : s.counted.length + s.errorsLogged.length + s.pc.judging + s.canTxDoneSem ≤ s.ran.length
  ok : s.canFramesTxOk = UInt32.ofNat s.counted.length

theorem Books.init : Books [] ({} : TxThread φ) := ⟨rfl, rfl, rfl, rfl, Nat.le_refl 0, rfl⟩

theorem countP_snoc (p : TxEv φ → Bool) (l : List (TxEv φ)) (e : TxEv φ) :
    (l ++ [e]).countP p = l.countP p + (p e).toNat := by
  rw [List.countP_append, List.countP_singleton]
  cases p e <;> rfl

/-- a step of the callback, which the thread does not notice -/
theorem Books.callback (hs : Books l s) (h1 : e.isGet = false) (h2 : e.isRefusal = false)
    (h3 : e.isTimeout = false) (hpc : t.pc = s.pc) (hh : t.handed = s.handed)
    (ha : t.accepted = s.accepted) (hc : t.counted = s.counted)
    (he : t.errorsLogged = s.errorsLogged) (ho : t.canFramesTxOk = s.canFramesTxOk)
    (hran : t.ran.length + t.due.length = s.ran.length + s.due.length)
    (htok : t.canTxDoneSem + s.ran.length ≤ s.canTxDoneSem + t.ran.length) :
    Books (l ++ [e]) t := by
  obtain ⟨b1, b2, b3, b4, b5, b6⟩ := hs
  constructor
  · rw [countP_snoc, h1, hpc, hh]
    exact b1
  · rw [countP_snoc, h2, hh, ha]
    exact b2
  · rw [countP_snoc, h3, hpc, hc, he, ha]
    exact b3
  · rw [hran, ha]
    exact b4
  · rw [hpc, hc, he]
    omega
  · rw [ho, hc]
    exact b6

theorem Books.step (hs : Books l s) (h : s.step e = some t) : Books (l ++ [e]) t := by
  cases e with
  | callbackWrite n error =>
    have hd := (due_callbackWrite h).length_eq
    obtain ⟨_, rfl⟩ := step_callbackWrite h
    exact hs.callback rfl rfl rfl rfl rfl rfl rfl rfl rfl (by rw [hd]) (Nat.le_refl _)
  | callbackGive n error =>
    have hd := (due_callbackGive h).length_eq
    obtain ⟨_, rfl⟩ := step_callbackGive h
    have hgive : semGive s.canTxDoneSem ≤ s.canTxDoneSem + 1 := Nat.min_le_left _ _
    rw [List.length_cons] at hd
    refine hs.callback rfl rfl rfl rfl rfl rfl rfl rfl rfl ?_ ?_
    · rw [hd]
      simp only [List.length_append, List.length_singleton]
      omega
    · simp only [List.length_append, List.length_singleton]
      omega
  | get frame =>
    obtain ⟨hp, rfl⟩ := step_get h
    obtain ⟨b1, b2, b3, b4, b5, b6⟩ := hs
    rw [hp] at b1 b3 b5
    refine ⟨?_, by rw [countP_snoc]; exact b2, by rw [countP_snoc]; exact b3, b4, b5, b6⟩
    rw [countP_snoc, b1]
    rfl
  | canSend ret =>
    obtain ⟨frame, hp, ⟨hr, rfl⟩ | ⟨rfl, ht⟩⟩ := step_canSend h
    · obtain ⟨b1, b2, b3, b4, b5, b6⟩ := hs
      rw [hp] at b1 b3 b5
      refine ⟨?_, ?_, by rw [countP_snoc]; exact b3, b4, b5, b6⟩
      · rw [countP_snoc, b1, List.length_append]
        rfl
      · have href : (TxEv.canSend ret : TxEv φ).isRefusal = true := decide_eq_true hr
        rw [countP_snoc, href, List.length_append, b2]
        show _ + 1 = _ + 1 + s.accepted
        omega
    · have hd := (due_canSend h).length_eq
      subst ht
      obtain ⟨b1, b2, b3, b4, b5, b6⟩ := hs
      rw [hp] at b1 b3 b5
      refine ⟨?_, ?_, ?_, ?_, b5, b6⟩
      · rw [countP_snoc, b1, List.length_append]
        rfl
      · rw [countP_snoc, List.length_append, b2]
        rfl
      · rw [countP_snoc, b3]
        rfl
      · rw [hd, List.length_cons]
        show s.ran.length + (s.due.length + 1) = s.accepted + 1
        omega
  | semTake =>
    obtain ⟨n, hp, hz, rfl⟩ := step_semTake h
    obtain ⟨b1, b2, b3, b4, b5, b6⟩ := hs
    rw [hp] at b1 b3 b5
    refine ⟨by rw [countP_snoc]; exact b1, by rw [countP_snoc]; exact b2,
      by rw [countP_snoc]; exact b3, b4, ?_, b6⟩
    show s.counted.length + s.errorsLogged.length + 1 + (s.canTxDoneSem - 1) ≤ s.ran.length
    have h5 : s.counted.length + s.errorsLogged.length + 0 + s.canTxDoneSem ≤ s.ran.length := b5
    omega
  | semTimeout =>
    obtain ⟨n, hp, hz, rfl⟩ := step_semTimeout h
    obtain ⟨b1, b2, b3, b4, b5, b6⟩ := hs
    rw [hp] at b1 b3 b5
    refine ⟨by rw [countP_snoc]; exact b1, by rw [countP_snoc]; exact b2, ?_, b4, b5, b6⟩
    rw [countP_snoc]
    exact b3
  | testResult =>
    obtain ⟨n, hp, hcases⟩ := step_testResult h
    obtain ⟨b1, b2, b3, b4, b5, b6⟩ := hs
    rw [hp] at b1 b3 b5
    rcases hcases with ⟨_, rfl⟩ | ⟨_, rfl⟩
    · exact ⟨by rw [countP_snoc]; exact b1, by rw [countP_snoc]; exact b2,
        by rw [countP_snoc]; exact b3, b4, b5, b6⟩
    · exact ⟨by rw [countP_snoc]; exact b1, by rw [countP_snoc]; exact b2,
        by rw [countP_snoc]; exact b3, b4, b5, b6⟩
  | logError =>
    obtain ⟨n, hp, rfl⟩ := step_logError h
    obtain ⟨b1, b2, b3, b4, b5, b6⟩ := hs
    rw [hp] at b1 b3 b5
    simp only [TxPc.waiting, TxPc.judging] at b3 b5
    refine ⟨by rw [countP_snoc]; exact b1, by rw [countP_snoc]; exact b2, ?_, b4, ?_, b6⟩
    · rw [countP_snoc]
      show s.accepted = s.counted.length + (s.errorsLogged ++ [(n, s.canTxResult)]).length +
        (l.countP TxEv.isTimeout + 0) + (0 + 0)
      rw [List.length_append, List.length_singleton]
      omega
    · rw [List.length_append, List.length_singleton]
      exact b5
  | countOk =>
    obtain ⟨n, hp, rfl⟩ := step_countOk h
    obtain ⟨b1, b2, b3, b4, b5, b6⟩ := hs
    rw [hp] at b1 b3 b5
    simp only [TxPc.waiting, TxPc.judging] at b3 b5
    refine ⟨by rw [countP_snoc]; exact b1, by rw [countP_snoc]; exact b2, ?_, b4, ?_, ?_⟩
    · rw [countP_snoc]
      show s.accepted = (s.counted ++ [n]).length + s.errorsLogged.length +
        (l.countP TxEv.isTimeout + 0) + (0 + 0)
      rw [List.length_append, List.length_singleton]
      omega
    · show (s.counted ++ [n]).length + s.errorsLogged.length + 0 + s.canTxDoneSem ≤ s.ran.length
      rw [List.length_append, List.length_singleton]
      omega
    · rw [List.length_append, List.length_singleton, UInt32.ofNat_add, ← b6]
      rfl

theorem Books.run (h : run TxThread.step {} l = some s) : Books l s :=
  hist_run Books.init (fun _ _ _ _ hI hx => hI.step hx) h

/-- **The callbacks still due and the token left over are at most the waits that timed out**, and
one more while the thread waits. -/
theorem stop_and_wait (h : Runs.run TxThread.step {} l = some s) :
    s.due.length + s.canTxDoneSem ≤ l.countP TxEv.isTimeout + s.pc.waiting := by
  obtain ⟨_, _, b3, b4, b5, _⟩ := Books.run h
  omega

/-- **Every frame taken from the queue was refused, counted, logged as an error or timed out**, but
for the one in progress, and `can_frames_tx_ok` is the number of those counted. -/
theorem every_frame_accounted (h : Runs.run TxThread.step {} l = some s) :
    l.countP TxEv.isGet =
        l.countP TxEv.isRefusal + s.counted.length + s.errorsLogged.length +
          l.countP TxEv.isTimeout + (s.pc.held + s.pc.waiting + s.pc.judging) ∧
      s.canFramesTxOk = UInt32.ofNat s.counted.length := by
  obtain ⟨b1, b2, b3, _, _, b6⟩ := Books.run h
  exact ⟨by omega, b6⟩

theorem stop_and_wait_lateRun :
    ∃ s, Runs.run TxThread.step {} lateRun = some s ∧ s.due = [1] ∧
      s.due.length + s.canTxDoneSem ≤ lateRun.countP TxEv.isTimeout + s.pc.waiting :=
  ⟨_, rfl, rfl, stop_and_wait (l := lateRun) rfl⟩

theorem every_frame_accounted_lateRun :
    ∃ s, Runs.run TxThread.step {} lateRun = some s ∧
      lateRun.countP TxEv.isGet =
          lateRun.countP TxEv.isRefusal + s.counted.length + s.errorsLogged.length +
            lateRun.countP TxEv.isTimeout + (s.pc.held + s.pc.waiting + s.pc.judging) ∧
        s.canFramesTxOk = UInt32.ofNat s.counted.length :=
  ⟨_, rfl, every_frame_accounted (l := lateRun) rfl⟩

/-! ## runs without timeouts -/

/-- the driver has the frame that the thread waits for, and no other -/
def Alone (s : TxThread φ) : Prop :=
  match s.pc with
  | .semTake n => (∀ m ∈ s.due, m = n) ∧ s.due.length + s.canTxDoneSem ≤ 1
  | _ => s.due = [] ∧ s.canTxDoneSem = 0

theorem Alone.init : Alone ({} : TxThread φ) := ⟨rfl, rfl⟩

/-- outside its wait the thread has left nothing in the driver -/
theorem Alone.idle (h : Alone s) (hp : ∀ n, s.pc ≠ .semTake n) :
    s.due = [] ∧ s.canTxDoneSem = 0 := by
  unfold Alone at h
  split at h
  · rename_i n hn
    exact absurd hn (hp n)
  · exact h

theorem alone_semTake {n : Nat} (hp : s.pc = .semTake n) :
    Alone s ↔ (∀ m ∈ s.due, m = n) ∧ s.due.length + s.canTxDoneSem ≤ 1 := by
  unfold Alone
  rw [hp]

/-- a callback is due in the wait for its own frame only -/
theorem Alone.waits (h : Alone s) {n : Nat} (hn : n ∈ s.due) :
    s.pc = .semTake n ∧ s.due.length + s.canTxDoneSem ≤ 1 := by
  unfold Alone at h
  split at h
  · rename_i m hp
    rw [hp, h.1 n hn]
    exact ⟨rfl, h.2⟩
  · rw [h.1] at hn
    cases hn

theorem Alone.step (hs : Alone s) (he : e.isTimeout = false) (h : s.step e = some t) :
    Alone t := by
  cases e with
  | get frame =>
    obtain ⟨hp, rfl⟩ := step_get h
    exact hs.idle (by rw [hp]; rintro n ⟨⟩)
  | canSend ret =>
    obtain ⟨frame, hp, hcases⟩ := step_canSend h
    have hidle := hs.idle (by rw [hp]; rintro n ⟨⟩)
    rcases hcases with ⟨_, rfl⟩ | ⟨rfl, ht⟩
    · exact hidle
    · have hd := due_canSend h
      rw [hidle.1] at hd
      have hpc : t.pc = .semTake s.accepted := by rw [ht]
      have hz : t.canTxDoneSem = 0 := by rw [ht]; exact hidle.2
      refine (alone_semTake hpc).mpr ⟨fun m hm => List.mem_singleton.mp (hd.mem_iff.mp hm), ?_⟩
      rw [hd.length_eq, hz]
      exact Nat.le_refl 1
  | semTake =>
    obtain ⟨n, hp, hz, rfl⟩ := step_semTake h
    obtain ⟨_, hle⟩ := (alone_semTake hp).mp hs
    exact ⟨List.length_eq_zero_iff.mp (show s.due.length = 0 by omega),
      show s.canTxDoneSem - 1 = 0 by omega⟩
  | semTimeout => cases he
  | testResult =>
    obtain ⟨n, hp, hcases⟩ := step_testResult h
    have hidle := hs.idle (by rw [hp]; rintro n ⟨⟩)
    rcases hcases with ⟨_, rfl⟩ | ⟨_, rfl⟩
    · exact hidle
    · exact hidle
  | logError =>
    obtain ⟨n, hp, rfl⟩ := step_logError h
    exact hs.idle (by rw [hp]; rintro n ⟨⟩)
  | countOk =>
    obtain ⟨n, hp, rfl⟩ := step_countOk h
    exact hs.idle (by rw [hp]; rintro n ⟨⟩)
  | callbackWrite n error =>
    have hd := due_callbackWrite h
    obtain ⟨hn, ht⟩ := step_callbackWrite h
    obtain ⟨hp, hle⟩ := hs.waits (List.mem_append_left _ hn)
    obtain ⟨hall, _⟩ := (alone_semTake hp).mp hs
    have hpc : t.pc = .semTake n := by rw [ht]; exact hp
    have hz : t.canTxDoneSem = s.canTxDoneSem := by rw [ht]
    refine (alone_semTake hpc).mpr ⟨fun m hm => hall m (hd.mem_iff.mp hm), ?_⟩
    rw [hd.length_eq, hz]
    exact hle
  | callbackGive n error =>
    have hd := due_callbackGive h
    obtain ⟨hn, ht⟩ := step_callbackGive h
    obtain ⟨hp, hle⟩ := hs.waits (hd.mem_iff.mpr List.mem_cons_self)
    obtain ⟨hall, _⟩ := (alone_semTake hp).mp hs
    have hpc : t.pc = .semTake n := by rw [ht]; exact hp
    have hz : t.canTxDoneSem ≤ s.canTxDoneSem + 1 := by rw [ht]; exact Nat.min_le_left _ _
    refine (alone_semTake hpc).mpr
      ⟨fun m hm => hall m (hd.mem_iff.mpr (List.mem_cons_of_mem _ hm)), ?_⟩
    rw [hd.length_eq, List.length_cons] at hle
    omega

/-- with the driver to itself a wait sees its own callback only -/
theorem Alone.inTime (h : Alone s) (hs : s.step e = some t) : InTime s e := by
  cases e with
  | callbackWrite n error =>
    exact (h.waits (List.mem_append_left _ (step_callbackWrite hs).1)).1
  | callbackGive n error =>
    exact (h.waits ((due_callbackGive hs).mem_iff.mpr List.mem_cons_self)).1
  | _ => exact True.intro

theorem always_inTime (hl : ∀ e ∈ l, e.isTimeout = false)
    (h : Runs.run TxThread.step s l = some t) (hs : Alone s) : Always TxThread.step InTime s l := by
  induction l generalizing s with
  | nil => exact True.intro
  | cons e l ih =>
    obtain ⟨u, hu, hrun⟩ := run_cons_some.mp h
    refine ⟨hs.inTime hu, fun v hv => ?_⟩
    obtain rfl := Option.some.inj (hu.symm.trans hv)
    exact ih (fun x hx => hl x (List.mem_cons_of_mem _ hx)) hrun
      (hs.step (hl e List.mem_cons_self) hu)

/-- **If no wait times out, every completion is attributed to the right frame.** -/
theorem attributed_without_timeouts (hl : ∀ e ∈ l, e.isTimeout = false)
    (h : Runs.run TxThread.step {} l = some s) : s.Attributed :=
  (Aligned.run (always_inTime hl h Alone.init) h).attributed

theorem attributed_without_timeouts_inTimeRun :
    ∃ s, Runs.run TxThread.step {} inTimeRun = some s ∧ s.Attributed :=
  ⟨_, rfl, attributed_without_timeouts (l := inTimeRun) (by decide) rfl⟩

end TxThread

end CCU
