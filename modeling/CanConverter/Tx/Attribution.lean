import CanConverter.Tx.Thread

/-!
# Which frame a completion is counted for

* `Attributed`            what the thread counts and logs for a frame is what that frame's own
                          callback said;
* `InTime`                the callback of a frame runs while the thread waits for that frame;
* `Ids.run`               the numbering of the callbacks, in every run;
* `Aligned.run`           when all callbacks are in time the semaphore and the result always
                          belong to the frame the thread is at;
* `stale_token`           a token that is left behind is taken for the next frame, whatever
                          became of that frame.
-/

namespace CCU
namespace TxThread
open Runs
variable {φ : Type} {s t : TxThread φ} {e : TxEv φ}

/-- every frame counted as sent had its callback run with error 0, every error logged for a frame
is the error its callback ran with -/
def Attributed (s : TxThread φ) : Prop :=
  (∀ n ∈ s.counted, (n, 0) ∈ s.ran) ∧ ∀ p ∈ s.errorsLogged, p ∈ s.ran

/-- a callback runs while the thread waits for its frame, not after the timeout -/
def InTime (s : TxThread φ) : TxEv φ → Prop
  | .callbackWrite n _ => s.pc = .semTake n
  | .callbackGive n _ => s.pc = .semTake n
  | _ => True

instance [DecidableEq φ] (s : TxThread φ) : ∀ e, Decidable (InTime s e)
  | .callbackWrite n _ => inferInstanceAs (Decidable (s.pc = .semTake n))
  | .callbackGive n _ => inferInstanceAs (Decidable (s.pc = .semTake n))
  | .get _ | .canSend _ | .semTake | .semTimeout | .testResult | .logError | .countOk =>
    isTrue True.intro

/-! ## the numbers of the callbacks -/

/-- the accepted frames whose callback has not finished -/
def due (s : TxThread φ) : List Nat := s.outstanding ++ s.writing.map Prod.fst

/-- a callback is due at most once, only accepted frames have one, the semaphore is binary -/
structure Ids (s : TxThread φ) : Prop where
  sem_le : s.canTxDoneSem ≤ 1
  nodup : s.due.Nodup
  due_lt : ∀ n ∈ s.due, n < s.accepted
  ran_lt : ∀ p ∈ s.ran, p.1 < s.accepted

theorem Ids.init : Ids ({} : TxThread φ) :=
  ⟨Nat.zero_le 1, List.nodup_nil, (fun _ h => nomatch h), (fun _ h => nomatch h)⟩

theorem due_callbackWrite {n : Nat} {error : Int} (h : s.step (.callbackWrite n error) = some t) :
    t.due.Perm s.due := by
  obtain ⟨hn, rfl⟩ := step_callbackWrite h
  show (s.outstanding.erase n ++ (s.writing ++ [(n, error)]).map Prod.fst).Perm s.due
  have h1 : s.outstanding.Perm (n :: s.outstanding.erase n) := List.perm_cons_erase hn
  rw [List.map_append, ← List.append_assoc]
  refine List.perm_append_comm.trans ?_
  exact (h1.append_right _).symm

theorem due_callbackGive {n : Nat} {error : Int} (h : s.step (.callbackGive n error) = some t) :
    s.due.Perm (n :: t.due) := by
  obtain ⟨hn, rfl⟩ := step_callbackGive h
  show s.due.Perm (n :: (s.outstanding ++ (s.writing.erase (n, error)).map Prod.fst))
  have h1 : (s.writing.map Prod.fst).Perm (n :: (s.writing.erase (n, error)).map Prod.fst) :=
    (List.perm_cons_erase hn).map Prod.fst
  exact (h1.append_left _).trans List.perm_middle

theorem due_canSend (h : s.step (.canSend 0) = some t) :
    t.due.Perm (s.accepted :: s.due) := by
  obtain ⟨f, _, ⟨h0, _⟩ | ⟨_, rfl⟩⟩ := step_canSend h
  · exact absurd rfl h0
  · show ((s.outstanding ++ [s.accepted]) ++ s.writing.map Prod.fst).Perm _
    rw [List.append_assoc]
    exact List.perm_middle

/-- steps that leave the callbacks alone -/
theorem Ids.of_eq (hs : Ids s) (h0 : t.canTxDoneSem ≤ s.canTxDoneSem) (h1 : t.outstanding = s.outstanding)
    (h2 : t.writing = s.writing) (h3 : t.ran = s.ran) (h4 : t.accepted = s.accepted) :
    Ids t := by
  have hd : t.due = s.due := by rw [due, h1, h2, due]
  refine ⟨Nat.le_trans h0 hs.sem_le, hd ▸ hs.nodup, ?_, ?_⟩
  · rw [hd, h4]
    exact hs.due_lt
  · rw [h3, h4]
    exact hs.ran_lt

theorem Ids.step (hs : Ids s) (h : s.step e = some t) : Ids t := by
  cases e with
  | get frame =>
    obtain ⟨_, rfl⟩ := step_get h
    exact hs.of_eq (Nat.le_refl _) rfl rfl rfl rfl
  | canSend ret =>
    obtain ⟨frame, hp, ⟨_, rfl⟩ | ⟨rfl, ht⟩⟩ := step_canSend h
    · exact hs.of_eq (Nat.le_refl _) rfl rfl rfl rfl
    · have hd := due_canSend h
      have ha : t.accepted = s.accepted + 1 := by rw [ht]
      have hr : t.ran = s.ran := by rw [ht]
      have hz : t.canTxDoneSem = s.canTxDoneSem := by rw [ht]
      refine ⟨hz ▸ hs.sem_le, hd.nodup_iff.mpr ?_, ?_, ?_⟩
      · exact List.nodup_cons.mpr ⟨fun hm => Nat.lt_irrefl _ (hs.due_lt _ hm), hs.nodup⟩
      · intro n hn
        rw [ha]
        rcases List.mem_cons.mp (hd.mem_iff.mp hn) with rfl | hm
        · exact Nat.lt_succ_self _
        · exact Nat.lt_succ_of_lt (hs.due_lt n hm)
      · intro p hq
        rw [ha]
        exact Nat.lt_succ_of_lt (hs.ran_lt p (hr ▸ hq))
  | semTake =>
    obtain ⟨_, _, _, rfl⟩ := step_semTake h
    exact hs.of_eq (Nat.sub_le _ _) rfl rfl rfl rfl
  | semTimeout =>
    obtain ⟨_, _, _, rfl⟩ := step_semTimeout h
    exact hs.of_eq (Nat.le_refl _) rfl rfl rfl rfl
  | testResult =>
    obtain ⟨_, _, ⟨_, rfl⟩ | ⟨_, rfl⟩⟩ := step_testResult h <;> exact hs.of_eq (Nat.le_refl _) rfl rfl rfl rfl
  | logError =>
    obtain ⟨_, _, rfl⟩ := step_logError h
    exact hs.of_eq (Nat.le_refl _) rfl rfl rfl rfl
  | countOk =>
    obtain ⟨_, _, rfl⟩ := step_countOk h
    exact hs.of_eq (Nat.le_refl _) rfl rfl rfl rfl
  | callbackWrite n error =>
    have hd := due_callbackWrite h
    obtain ⟨_, ht⟩ := step_callbackWrite h
    have ha : t.accepted = s.accepted := by rw [ht]
    have hr : t.ran = s.ran := by rw [ht]
    have hz : t.canTxDoneSem = s.canTxDoneSem := by rw [ht]
    refine ⟨hz ▸ hs.sem_le, hd.nodup_iff.mpr hs.nodup, ?_, ?_⟩
    · intro m hm
      exact ha ▸ hs.due_lt m (hd.mem_iff.mp hm)
    · intro p hp
      exact ha ▸ hs.ran_lt p (hr ▸ hp)
  | callbackGive n error =>
    have hd := due_callbackGive h
    obtain ⟨_, ht⟩ := step_callbackGive h
    have ha : t.accepted = s.accepted := by rw [ht]
    have hr : t.ran = s.ran ++ [(n, error)] := by rw [ht]
    have hn : n < s.accepted := hs.due_lt n (hd.mem_iff.mpr List.mem_cons_self)
    have hz : t.canTxDoneSem ≤ 1 := by
      rw [ht]
      exact Nat.min_le_right _ _
    refine ⟨hz, (List.nodup_cons.mp (hd.nodup_iff.mp hs.nodup)).2, ?_,
      ?_⟩
    · intro m hm
      exact ha ▸ hs.due_lt m (hd.mem_iff.mpr (List.mem_cons_of_mem _ hm))
    · intro p hp
      rw [ha]
      rw [hr, List.mem_append, List.mem_singleton] at hp
      rcases hp with hp | rfl
      · exact hs.ran_lt p hp
      · exact hn

theorem Ids.run {l : List (TxEv φ)} (h : run TxThread.step {} l = some t) : Ids t :=
  inv_run (fun _ _ _ hs ht => hs.step ht) Ids.init h

/-! ## callbacks in time -/

/-- the semaphore and the result, seen from the place the thread is at -/
def PcOk (s : TxThread φ) : TxPc φ → Prop
  | .get | .canSend _ => s.canTxDoneSem = 0
  | .semTake n =>
    n < s.accepted ∧ (n ∈ s.outstanding → s.canTxDoneSem = 0) ∧
      (∀ error, (n, error) ∈ s.writing → s.canTxDoneSem = 0 ∧ error = s.canTxResult) ∧
      (s.canTxDoneSem ≠ 0 → (n, s.canTxResult) ∈ s.ran)
  | .testResult n | .logError n => s.canTxDoneSem = 0 ∧ (n, s.canTxResult) ∈ s.ran
  | .countOk n => s.canTxDoneSem = 0 ∧ (n, 0) ∈ s.ran

structure Aligned (s : TxThread φ) : Prop where
  ids : Ids s
  pcOk : PcOk s s.pc
  attributed : Attributed s

theorem Aligned.init : Aligned ({} : TxThread φ) :=
  ⟨Ids.init, rfl, ⟨(fun _ h => nomatch h), (fun _ h => nomatch h)⟩⟩

/-- what was attributed stays so while callbacks run -/
theorem Attributed.mono (hs : Attributed s) (h1 : t.counted = s.counted)
    (h2 : t.errorsLogged = s.errorsLogged) (h3 : ∀ p ∈ s.ran, p ∈ t.ran) : Attributed t := by
  constructor
  · intro n hn
    exact h3 _ (hs.1 n (h1 ▸ hn))
  · intro p hp
    exact h3 _ (hs.2 p (h2 ▸ hp))

theorem Aligned.step (hs : Aligned s) (hG : InTime s e) (h : s.step e = some t) : Aligned t := by
  have hids : Ids t := hs.ids.step h
  obtain ⟨hi, hpc, hatt⟩ := hs
  cases e with
  | get frame =>
    obtain ⟨hp, rfl⟩ := step_get h
    rw [hp] at hpc
    exact ⟨hids, hpc, hatt⟩
  | canSend ret =>
    obtain ⟨frame, hp, ⟨_, rfl⟩ | ⟨_, rfl⟩⟩ := step_canSend h <;> rw [hp] at hpc
    · exact ⟨hids, hpc, hatt⟩
    · have h0 : s.canTxDoneSem = 0 := hpc
      refine ⟨hids, ⟨Nat.lt_succ_self _, fun _ => h0, fun error hm => ?_, fun hc => ?_⟩, hatt⟩
      · have hd : s.accepted ∈ s.due :=
          List.mem_append_right _ (List.mem_map_of_mem (f := Prod.fst) hm)
        exact absurd (hi.due_lt _ hd) (Nat.lt_irrefl _)
      · exact absurd h0 hc
  | semTake =>
    obtain ⟨n, hp, hz, rfl⟩ := step_semTake h
    rw [hp] at hpc
    obtain ⟨_, _, _, hran⟩ := hpc
    have h1 : s.canTxDoneSem ≤ 1 := hi.sem_le
    exact ⟨hids, ⟨Nat.sub_eq_zero_of_le h1, hran hz⟩, hatt⟩
  | semTimeout =>
    obtain ⟨n, hp, hz, rfl⟩ := step_semTimeout h
    exact ⟨hids, hz, hatt⟩
  | testResult =>
    obtain ⟨n, hp, ⟨_, rfl⟩ | ⟨hr, rfl⟩⟩ := step_testResult h <;> rw [hp] at hpc
    · exact ⟨hids, hpc, hatt⟩
    · exact ⟨hids, ⟨hpc.1, hr ▸ hpc.2⟩, hatt⟩
  | logError =>
    obtain ⟨n, hp, rfl⟩ := step_logError h
    rw [hp] at hpc
    refine ⟨hids, hpc.1, hatt.1, ?_⟩
    intro p hq
    rcases List.mem_append.mp hq with hq | hq
    · exact hatt.2 p hq
    · rw [List.mem_singleton.mp hq]
      exact hpc.2
  | countOk =>
    obtain ⟨n, hp, rfl⟩ := step_countOk h
    rw [hp] at hpc
    refine ⟨hids, hpc.1, ?_, hatt.2⟩
    intro m hm
    rcases List.mem_append.mp hm with hm | hm
    · exact hatt.1 m hm
    · rw [List.mem_singleton.mp hm]
      exact hpc.2
  | callbackWrite n error =>
    have hp : s.pc = .semTake n := hG
    rw [hp] at hpc
    obtain ⟨hlt, hout, _, _⟩ := hpc
    obtain ⟨hn, rfl⟩ := step_callbackWrite h
    have h0 : s.canTxDoneSem = 0 := hout hn
    -- the callback has not begun, so no other write of it is under way
    have hw : n ∉ s.writing.map Prod.fst := fun hm =>
      (List.nodup_append.mp hi.nodup).2.2 n hn n hm rfl
    refine ⟨hids, ?_, hatt.mono rfl rfl fun _ hp => hp⟩
    show PcOk _ s.pc
    rw [hp]
    refine ⟨hlt, fun _ => h0, fun err hm => ⟨h0, ?_⟩, fun hc => absurd h0 hc⟩
    rcases List.mem_append.mp hm with hm | hm
    · exact absurd (List.mem_map_of_mem (f := Prod.fst) hm) hw
    · exact congrArg Prod.snd (List.mem_singleton.mp hm)
  | callbackGive n error =>
    have hp : s.pc = .semTake n := hG
    rw [hp] at hpc
    obtain ⟨hlt, _, hwr, _⟩ := hpc
    -- after the give nothing of this callback is left
    have hnd : n ∉ t.due :=
      (List.nodup_cons.mp ((due_callbackGive h).nodup_iff.mp hi.nodup)).1
    obtain ⟨hn, rfl⟩ := step_callbackGive h
    obtain ⟨h0, herr⟩ := hwr error hn
    refine ⟨hids, ?_, hatt.mono rfl rfl fun _ hp => List.mem_append_left _ hp⟩
    show PcOk _ s.pc
    rw [hp]
    refine ⟨hlt, ?_, ?_, ?_⟩
    · intro hm
      exact absurd (List.mem_append_left _ hm) hnd
    · intro err hm
      exact absurd (List.mem_append_right _ (List.mem_map_of_mem (f := Prod.fst) hm)) hnd
    · intro _
      rw [← herr]
      exact List.mem_append_right _ (List.mem_singleton.mpr rfl)

theorem Aligned.run {l : List (TxEv φ)} (hG : Always TxThread.step InTime {} l)
    (h : run TxThread.step {} l = some t) : Aligned t :=
  inv_run_of (fun _ _ _ hs hG ht => hs.step hG ht) Aligned.init hG h

/-- **With every callback in time, every completion is attributed to the right frame.** -/
theorem completion_attributed {l : List (TxEv φ)} (hG : Always TxThread.step InTime {} l)
    (h : Runs.run TxThread.step {} l = some t) : t.Attributed :=
  (Aligned.run hG h).attributed

/-- frame 0 is sent, frame 1 fails with the error -5 -/
def inTimeRun : List (TxEv Unit) :=
  [.get (), .canSend 0, .callbackWrite 0 0, .callbackGive 0 0, .semTake, .testResult, .countOk,
    .get (), .canSend 0, .callbackWrite 1 (-5), .callbackGive 1 (-5), .semTake, .testResult,
    .logError]

theorem completion_attributed_inTimeRun :
    ∃ s, Runs.run TxThread.step {} inTimeRun = some s ∧ s.counted = [0] ∧
      s.errorsLogged = [(1, -5)] ∧ s.Attributed :=
  ⟨_, rfl, rfl, rfl, completion_attributed (l := inTimeRun) (by decide) rfl⟩

/-! ## callbacks that come late -/

/-- **A token left behind goes to the next frame.**  After any run, if the thread is about to take
a frame while the semaphore has a token, then that frame is counted or logged although its
callback has not run. -/
theorem stale_token {l : List (TxEv φ)} (h : Runs.run TxThread.step {} l = some s)
    (hp : s.pc = .get) (hz : s.canTxDoneSem ≠ 0) (frame : φ) :
    ∃ e t, Runs.run TxThread.step s [.get frame, .canSend 0, .semTake, .testResult, e] = some t ∧
      ¬ t.Attributed := by
  have hnew : ∀ error, (s.accepted, error) ∉ s.ran := fun error hm =>
    Nat.lt_irrefl _ ((Ids.run h).ran_lt _ hm)
  obtain ⟨pc, sem, result, _, accepted, _, _, _, _, _, _⟩ := s
  subst hp
  by_cases hr : result = 0
  · refine ⟨.countOk, _, run_cons_some.mpr ⟨_, rfl, run_cons_some.mpr ⟨_, rfl,
      run_cons_some.mpr ⟨_, if_neg hz, run_cons_some.mpr ⟨_, if_neg (not_not.mpr hr),
        run_cons_some.mpr ⟨_, rfl, run_nil _⟩⟩⟩⟩⟩, fun hatt => hnew 0 ?_⟩
    exact hatt.1 accepted (List.mem_append_right _ (List.mem_singleton.mpr rfl))
  · refine ⟨.logError, _, run_cons_some.mpr ⟨_, rfl, run_cons_some.mpr ⟨_, rfl,
      run_cons_some.mpr ⟨_, if_neg hz, run_cons_some.mpr ⟨_, if_pos hr,
        run_cons_some.mpr ⟨_, rfl, run_nil _⟩⟩⟩⟩⟩, fun hatt => hnew result ?_⟩
    exact hatt.2 (accepted, result) (List.mem_append_right _ (List.mem_singleton.mpr rfl))

/-- frame 0 times out, its callback comes while the thread waits for frame 1 -/
def lateRun : List (TxEv Unit) :=
  [.get (), .canSend 0, .semTimeout, .get (), .canSend 0, .callbackWrite 0 0, .callbackGive 0 0,
    .semTake, .testResult, .countOk]

theorem lateRun_counted :
    ∃ s, Runs.run TxThread.step {} lateRun = some s ∧ s.counted = [1] ∧ s.ran = [(0, 0)] ∧
      ¬ s.Attributed := by
  refine ⟨_, rfl, rfl, rfl, ?_⟩
  intro h
  have h1 : ((1 : Nat), (0 : Int)) ∈ [(0, 0)] := h.1 1 (List.mem_singleton.mpr rfl)
  exact absurd h1 (by decide)

end TxThread
end CCU
