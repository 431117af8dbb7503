import CanConverter.Lib.Run

/-!
# `ccu_can_tx_thread` and its completion callback

The thread takes a frame from the queue, hands it to the driver, waits up to 200 ms for
`can_tx_done_sem` and looks at `can_tx_result`.  The driver runs `ccu_can_tx_callback` once for
every frame it accepted, at any later moment; the callback writes `can_tx_result` and gives the
semaphore, and both statements are steps of their own.

Neither the semaphore nor the result says which frame they are about.  The model numbers the
accepted frames, to say so: `n` in `TxPc` is the frame the thread waits for, and `ran`, `counted`
and `errorsLogged` are the history of callbacks, of `can_frames_tx_ok++` and of "CAN TX error".
-/

namespace CCU

/-- where the thread is; the frames have the type `φ` -/
inductive TxPc (φ : Type) where
  | get
  | canSend (frame : φ)
  | semTake (n : Nat)
  | testResult (n : Nat)
  | logError (n : Nat)
  | countOk (n : Nat)
deriving DecidableEq

/-- the frame the thread holds between `k_msgq_get` and `can_send` -/
def TxPc.hand {φ : Type} : TxPc φ → Option φ
  | .canSend frame => some frame
  | _ => none

structure TxThread (φ : Type) where
  pc : TxPc φ := .get
  canTxDoneSem : Nat := 0
  canTxResult : Int := 0
  canFramesTxOk : UInt32 := 0
  /-- how many frames the driver accepted -/
  accepted : Nat := 0
  /-- the accepted frames whose callback has not begun -/
  outstanding : List Nat := []
  /-- the callbacks between their two statements -/
  writing : List (Nat × Int) := []
  /-- the callbacks that have run -/
  ran : List (Nat × Int) := []
  /-- the frames handed to `can_send` -/
  handed : List φ := []
  counted : List Nat := []
  errorsLogged : List (Nat × Int) := []

/-- the steps of the thread and of the callback -/
inductive TxEv (φ : Type) where
  | get (frame : φ)
  | canSend (ret : Int)
  | semTake
  | semTimeout
  | testResult
  | logError
  | countOk
  | callbackWrite (n : Nat) (error : Int)
  | callbackGive (n : Nat) (error : Int)
deriving DecidableEq

/-- `k_sem_give` on the binary semaphore -/
def semGive (count : Nat) : Nat := min (count + 1) 1

namespace TxThread
variable {φ : Type}

def step (s : TxThread φ) : TxEv φ → Option (TxThread φ)
  | .get frame =>
    match s.pc with
    | .get => some { s with pc := .canSend frame }
    | _ => none
  | .canSend ret =>
    match s.pc with
    | .canSend frame =>
      if ret ≠ 0 then
        some { s with pc := .get, handed := s.handed ++ [frame] } -- "CAN send failed"
      else
        some { s with
          pc := .semTake s.accepted
          accepted := s.accepted + 1
          outstanding := s.outstanding ++ [s.accepted]
          handed := s.handed ++ [frame] }
    | _ => none
  | .semTake =>
    match s.pc with
    | .semTake n =>
      if s.canTxDoneSem = 0 then none
      else some { s with pc := .testResult n, canTxDoneSem := s.canTxDoneSem - 1 }
    | _ => none
  | .semTimeout =>
    match s.pc with
    | .semTake _ => if s.canTxDoneSem = 0 then some { s with pc := .get } else none -- "CAN TX timeout"
    | _ => none
  | .testResult =>
    match s.pc with
    | .testResult n =>
      if s.canTxResult ≠ 0 then some { s with pc := .logError n }
      else some { s with pc := .countOk n }
    | _ => none
  | .logError =>
    -- the argument of the log call is a second read of the volatile
    match s.pc with
    | .logError n =>
      some { s with pc := .get, errorsLogged := s.errorsLogged ++ [(n, s.canTxResult)] }
    | _ => none
  | .countOk =>
    match s.pc with
    | .countOk n =>
      some { s with
        pc := .get, canFramesTxOk := s.canFramesTxOk + 1, counted := s.counted ++ [n] }
    | _ => none
  | .callbackWrite n error =>
    if n ∈ s.outstanding then
      some { s with
        canTxResult := error
        outstanding := s.outstanding.erase n
        writing := s.writing ++ [(n, error)] }
    else none
  | .callbackGive n error =>
    if (n, error) ∈ s.writing then
      some { s with
        canTxDoneSem := semGive s.canTxDoneSem
        writing := s.writing.erase (n, error)
        ran := s.ran ++ [(n, error)] }
    else none

/-! ## what a step can do -/

section
variable {s t : TxThread φ}

theorem step_get {frame : φ} (h : s.step (.get frame) = some t) :
    s.pc = .get ∧ t = { s with pc := .canSend frame } := by
  simp only [step] at h
  split at h
  · rename_i hp
    exact ⟨hp, (Option.some.inj h).symm⟩
  · cases h

theorem step_canSend {ret : Int} (h : s.step (.canSend ret) = some t) :
    ∃ frame, s.pc = .canSend frame ∧
      ((ret ≠ 0 ∧ t = { s with pc := .get, handed := s.handed ++ [frame] }) ∨
       (ret = 0 ∧ t = { s with
          pc := .semTake s.accepted
          accepted := s.accepted + 1
          outstanding := s.outstanding ++ [s.accepted]
          handed := s.handed ++ [frame] })) := by
  simp only [step] at h
  split at h
  · rename_i frame hp
    refine ⟨frame, hp, ?_⟩
    split at h
    · rename_i hr
      exact .inl ⟨hr, (Option.some.inj h).symm⟩
    · rename_i hr
      exact .inr ⟨not_not.mp hr, (Option.some.inj h).symm⟩
  · cases h

theorem step_semTake (h : s.step .semTake = some t) :
    ∃ n, s.pc = .semTake n ∧ s.canTxDoneSem ≠ 0 ∧
      t = { s with pc := .testResult n, canTxDoneSem := s.canTxDoneSem - 1 } := by
  simp only [step] at h
  split at h
  · rename_i n hp
    split at h
    · cases h
    · rename_i hz
      exact ⟨n, hp, hz, (Option.some.inj h).symm⟩
  · cases h

theorem step_semTimeout (h : s.step .semTimeout = some t) :
    ∃ n, s.pc = .semTake n ∧ s.canTxDoneSem = 0 ∧ t = { s with pc := .get } := by
  simp only [step] at h
  split at h
  · rename_i n hp
    split at h
    · rename_i hz
      exact ⟨n, hp, hz, (Option.some.inj h).symm⟩
    · cases h
  · cases h

theorem step_testResult (h : s.step .testResult = some t) :
    ∃ n, s.pc = .testResult n ∧
      ((s.canTxResult ≠ 0 ∧ t = { s with pc := .logError n }) ∨
       (s.canTxResult = 0 ∧ t = { s with pc := .countOk n })) := by
  simp only [step] at h
  split at h
  · rename_i n hp
    refine ⟨n, hp, ?_⟩
    split at h
    · rename_i hr
      exact .inl ⟨hr, (Option.some.inj h).symm⟩
    · rename_i hr
      exact .inr ⟨not_not.mp hr, (Option.some.inj h).symm⟩
  · cases h

theorem step_logError (h : s.step .logError = some t) :
    ∃ n, s.pc = .logError n ∧
      t = { s with pc := .get, errorsLogged := s.errorsLogged ++ [(n, s.canTxResult)] } := by
  simp only [step] at h
  split at h
  · rename_i n hp
    exact ⟨n, hp, (Option.some.inj h).symm⟩
  · cases h

theorem step_countOk (h : s.step .countOk = some t) :
    ∃ n, s.pc = .countOk n ∧
      t = { s with
        pc := .get, canFramesTxOk := s.canFramesTxOk + 1, counted := s.counted ++ [n] } := by
  simp only [step] at h
  split at h
  · rename_i n hp
    exact ⟨n, hp, (Option.some.inj h).symm⟩
  · cases h

theorem step_callbackWrite {n : Nat} {error : Int} (h : s.step (.callbackWrite n error) = some t) :
    n ∈ s.outstanding ∧
      t = { s with
        canTxResult := error
        outstanding := s.outstanding.erase n
        writing := s.writing ++ [(n, error)] } := by
  simp only [step] at h
  split at h
  · rename_i hn
    exact ⟨hn, (Option.some.inj h).symm⟩
  · cases h

theorem step_callbackGive {n : Nat} {error : Int} (h : s.step (.callbackGive n error) = some t) :
    (n, error) ∈ s.writing ∧
      t = { s with
        canTxDoneSem := semGive s.canTxDoneSem
        writing := s.writing.erase (n, error)
        ran := s.ran ++ [(n, error)] } := by
  simp only [step] at h
  split at h
  · rename_i hn
    exact ⟨hn, (Option.some.inj h).symm⟩
  · cases h

end

end TxThread

end CCU
