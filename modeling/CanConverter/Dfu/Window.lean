import CanConverter.Dfu.Session

/-!
# The calls of a run of `run_dfu`, and the window of the batch ACK

`logCall` is the monitor that writes down the frames a run gives to `bus.send` and the replies its
waits consume.  With every run starting when no reply is pending, the log of a run that returns is
known: the REQUEST and its reply, the DATA frames with a reply after every 32nd, the COMMIT and its
reply.

* `burst`             the frames sent since the last wait;
* `Logged`            the log at every place of the run;
* `Windowed.step`     one more event of the host, of the device or of the bus;
* `host_in_lockstep`  the waits, the replies they consume and the window, in every run.
-/

namespace CCU
open Runs

/-- a frame given to `bus.send`, or a reply that ended a wait -/
inductive DfuCall where
  | request
  | data
  | commit
  | answer (runNo : Nat) (answers : DfuStep)
deriving DecidableEq

def DfuCall.isSend : DfuCall → Bool
  | .answer _ _ => false
  | _ => true

/-- the frame that is sent at a place of the run -/
def HostPc.sends : HostPc → DfuCall
  | .sendRequest => .request
  | .sendCommit => .commit
  | _ => .data

/-- the frames sent since the last wait -/
def burst (l : List DfuCall) : Nat := (l.reverse.takeWhile DfuCall.isSend).length

/-- the waits that a reply has ended -/
def waits (l : List DfuCall) : Nat := l.countP fun c => !c.isSend

theorem burst_send {c : DfuCall} (hc : c.isSend = true) (l : List DfuCall) :
    burst (l ++ [c]) = burst l + 1 := by
  unfold burst
  rw [List.reverse_append, List.reverse_singleton, List.singleton_append,
    List.takeWhile_cons_of_pos hc, List.length_cons]

theorem burst_answer (l : List DfuCall) (runNo : Nat) (k : DfuStep) :
    burst (l ++ [.answer runNo k]) = 0 := by
  unfold burst
  rw [List.reverse_append, List.reverse_singleton, List.singleton_append,
    List.takeWhile_cons_of_neg Bool.false_ne_true, List.length_nil]

/-! ## the log of a run in closed form -/

/-- the REQUEST -/
def opening (runNo : Nat) : List DfuCall := [.request, .answer runNo .request]

/-- the DATA frame `k`, and the batch ACK if one is due -/
def round (runNo k : Nat) : List DfuCall :=
  .data :: if (k + 1) % dfuBatchSize = 0 then [.answer runNo .batch] else []

/-- the first `n` DATA frames -/
def rounds (runNo n : Nat) : List DfuCall := (List.range n).flatMap (round runNo)

theorem rounds_succ (runNo n : Nat) : rounds runNo (n + 1) = rounds runNo n ++ round runNo n := by
  unfold rounds
  rw [List.range_succ, List.flatMap_append, List.flatMap_singleton]

theorem round_batch {runNo n : Nat} (h : (n + 1) % dfuBatchSize = 0) :
    rounds runNo (n + 1) = rounds runNo n ++ [.data] ++ [.answer runNo .batch] := by
  rw [rounds_succ, round, if_pos h, List.append_assoc]
  rfl

theorem round_single {runNo n : Nat} (h : (n + 1) % dfuBatchSize ≠ 0) :
    rounds runNo (n + 1) = rounds runNo n ++ [.data] := by
  rw [rounds_succ, round, if_neg h]

/-- the window starts over with every batch -/
theorem burst_rounds (runNo n : Nat) : burst (opening runNo ++ rounds runNo n) = n % dfuBatchSize := by
  induction n with
  | zero => rfl
  | succ n ih =>
    by_cases h : (n + 1) % dfuBatchSize = 0
    · rw [round_batch h, ← List.append_assoc, burst_answer, h]
    · rw [round_single h, ← List.append_assoc, burst_send (by rfl), ih]
      unfold dfuBatchSize at h ⊢
      omega

theorem waits_append (l l' : List DfuCall) : waits (l ++ l') = waits l + waits l' :=
  List.countP_append

theorem waits_rounds (runNo n : Nat) : waits (rounds runNo n) = n / dfuBatchSize := by
  induction n with
  | zero => rfl
  | succ n ih =>
    by_cases h : (n + 1) % dfuBatchSize = 0
    · have hone : waits [DfuCall.data] + waits [.answer runNo .batch] = 1 := rfl
      rw [round_batch h, waits_append, waits_append, ih]
      unfold dfuBatchSize at h ⊢
      omega
    · have hnone : waits [DfuCall.data] = 0 := rfl
      rw [round_single h, waits_append, ih]
      unfold dfuBatchSize at h ⊢
      omega

namespace Session

/-- the monitor: a run that starts begins a new log -/
def logCall (l : List DfuCall) (s : Session) (e : DfuEv) (t : Session) : List DfuCall :=
  match e with
  | .start _ => []
  | .host (.send _) =>
    if t.host.frames.length = s.host.frames.length then l else l ++ [s.host.pc.sends]
  | .reply => l ++ s.replies.head?.toList.map fun r => .answer r.runNo r.answers
  | _ => l

/-- the log at the place `pc` of the run; nothing is claimed of a run that raises -/
def Logged (l : List DfuCall) (s : Session) : HostPc → Prop
  | .sendRequest => l = []
  | .waitRequest => l = [.request]
  | .startClock | .sendData | .stopClock | .sendCommit =>
    l = opening s.runNo ++ rounds s.runNo s.host.seq
  | .waitBatch =>
    ∃ n, s.host.seq = n + 1 ∧ (n + 1) % dfuBatchSize = 0 ∧
      l = opening s.runNo ++ rounds s.runNo n ++ [.data]
  | .waitCommit => l = opening s.runNo ++ rounds s.runNo s.host.seq ++ [.commit]
  | .returned =>
    l = opening s.runNo ++ rounds s.runNo s.host.seq ++ [.commit, .answer s.runNo .commit] ∧
      s.pending = []
  | .raised _ => True

theorem Logged.burst_le {l : List DfuCall} {s : Session} {pc : HostPc} (h : Logged l s pc)
    (hpc : pc.over = false) : burst l ≤ dfuBatchSize := by
  have hmod : ∀ n, n % dfuBatchSize + 1 ≤ dfuBatchSize := fun n => Nat.mod_lt n (Nat.zero_lt_succ 31)
  cases pc with
  | sendRequest =>
    rw [show l = [] from h]
    exact Nat.zero_le _
  | waitRequest =>
    rw [show l = [.request] from h]
    exact Nat.le_of_ble_eq_true rfl
  | startClock | sendData | stopClock | sendCommit =>
    rw [show l = _ from h, burst_rounds]
    exact Nat.le_of_succ_le (hmod _)
  | waitBatch =>
    obtain ⟨n, _, _, hl⟩ := h
    rw [hl, burst_send (by rfl), burst_rounds]
    exact hmod n
  | waitCommit =>
    rw [show l = _ from h, burst_send (by rfl), burst_rounds]
    exact hmod _
  | returned | raised _ => cases hpc

section
variable {crc32 : List UInt8 → Nat → Nat} {l : List DfuCall} {s t : Session} {h : Host}

theorem Logged.loopTest (hh : s.host = h.loopTest)
    (hl : l = opening s.runNo ++ rounds s.runNo h.seq) : Logged l s s.host.pc := by
  have hl' : l = opening s.runNo ++ rounds s.runNo s.host.seq := by
    rw [hl, hh]
    rfl
  rcases h.loopTest_cases with ⟨_, he⟩ | ⟨_, he⟩
  · rw [hh, he]
    exact hl'
  · rw [hh, he]
    exact hl'

theorem Logged.raised {e : DfuError} (hh : h.pc = .raised e) (l : List DfuCall) (s : Session) :
    Logged l s h.pc := by
  rw [hh]
  exact True.intro

theorem Logged.of_same {pc : HostPc} (hs : Logged l s pc) (hn : t.runNo = s.runNo)
    (hq : t.host.seq = s.host.seq) (hp : s.pending = [] → t.pending = []) : Logged l t pc := by
  cases pc with
  | sendRequest | waitRequest | raised _ => exact hs
  | startClock | sendData | stopClock | sendCommit | waitCommit =>
    show l = _
    rw [hn, hq]
    exact hs
  | waitBatch =>
    obtain ⟨n, h1, h2, h3⟩ := hs
    refine ⟨n, hq.trans h1, h2, ?_⟩
    rw [hn]
    exact h3
  | returned =>
    obtain ⟨h1, h2⟩ := hs
    refine ⟨?_, hp h2⟩
    rw [hn, hq]
    exact h1

theorem Logged.send {ok : Bool} (hs : Logged l s s.host.pc)
    (hstep : s.host.step crc32 (.send ok) = some h) :
    Logged (logCall l s (.host (.send ok)) (s.moveTo h)) (s.moveTo h) h.pc := by
  have hgrow : ∀ f, h.frames = s.host.frames ++ [f] →
      logCall l s (.host (.send ok)) (s.moveTo h) = l ++ [s.host.pc.sends] := by
    intro f hf
    refine if_neg fun hlen => ?_
    have hlen' : h.frames.length = s.host.frames.length := hlen
    rw [hf, List.length_append] at hlen'
    exact absurd hlen' (Nat.succ_ne_self _)
  rcases Host.step_send hstep with
    ⟨e, he, _⟩ | ⟨f, ⟨hpc, hf, rfl⟩ | ⟨hpc, hf, rfl⟩ | ⟨hpc, hf, rfl⟩⟩
  · exact Logged.raised he _ _
  · rw [hgrow f rfl, hpc]
    rw [hpc] at hs
    rw [show l = [] from hs]
    rfl
  · rw [hpc] at hs
    generalize hg : ({ s.host with crc := crc32 s.host.chunk s.host.crc &&& 0xFFFFFFFF,
                                   frames := s.host.frames ++ [f] } : Host) = g at hgrow ⊢
    have hseq : g.seq = s.host.seq := by rw [← hg]
    have hfr : (Host.afterData s.host.chunk g).frames = s.host.frames ++ [f] := by
      rw [Host.afterData_frames, ← hg]
    have hl : l = opening s.runNo ++ rounds s.runNo g.seq := by
      rw [hseq]
      exact hs
    rw [hgrow f hfr, hpc, hl]
    rcases Host.afterData_cases s.host.chunk g with ⟨h0, hd⟩ | ⟨h0, hd⟩
    · rw [hd]
      exact ⟨g.seq, rfl, h0, rfl⟩
    · rw [hd]
      refine Logged.loopTest rfl ?_
      show _ = opening s.runNo ++ rounds s.runNo (g.seq + 1)
      rw [round_single h0, List.append_assoc]
      rfl
  · rw [hgrow f rfl, hpc]
    rw [hpc] at hs
    rw [show l = _ from hs]
    rfl

theorem Logged.host {e : HostEv} (hs : Logged l s s.host.pc) (hskip : e.Skipped)
    (hstep : s.host.step crc32 e = some h) :
    Logged (logCall l s (.host e) (s.moveTo h)) (s.moveTo h) h.pc := by
  cases e with
  | send ok => exact hs.send hstep
  | timeout =>
    obtain ⟨_, rfl⟩ := Host.step_timeout hstep
    exact Logged.raised rfl _ _
  | recv msg =>
    have hsk : waitResponse msg = .skip := hskip
    rcases Host.step_recv hstep with ⟨_, rfl⟩ | ⟨e, rfl⟩ | ⟨hok, _⟩
    · obtain ⟨h1, _⟩ := moveTo_pending (s := s) (h := s.host) rfl
      exact hs.of_same rfl rfl fun hp => h1.trans hp
    · exact Logged.raised rfl _ _
    · rw [hsk] at hok
      cases hok
  | clock now =>
    rcases Host.step_clock hstep with ⟨hpc, rfl⟩ | ⟨_, _, rfl⟩ | ⟨hpc, _, rfl⟩
    · rw [hpc] at hs
      exact Logged.loopTest rfl hs
    · exact Logged.raised rfl _ _
    · rw [hpc] at hs
      exact hs

theorem Logged.reply {r : DfuReply} {rest : List DfuReply} (hs : Logged l s s.host.pc)
    (hin : InStep s s.host.pc) (ht : s.host.Tallied) (hl : s.replies = r :: rest)
    (hstep : s.host.step crc32 (.recv r.msg) = some h) :
    Logged (l ++ [.answer r.runNo r.answers]) ({ s with replies := rest }.moveTo h) h.pc := by
  have hpend := pending_reply hl
  have hmsg := waitResponse_msg r
  have htag : ∀ k, s.pending = [(s.runNo, k)] →
      DfuCall.answer r.runNo r.answers = .answer s.runNo k ∧
        { s with replies := rest }.pending = [] := by
    intro k hk
    obtain ⟨htag, hrest⟩ := List.cons.inj (hpend.symm.trans hk)
    obtain ⟨hn, ha⟩ := Prod.mk.inj htag
    exact ⟨by rw [hn, ha], hrest⟩
  rcases Host.step_recv hstep with
    ⟨hsk, _⟩ | ⟨e, rfl⟩ | ⟨_, ⟨hpc, rfl⟩ | ⟨hpc, rfl⟩ | ⟨hpc, rfl⟩⟩
  · rw [hsk] at hmsg
    cases hmsg
  · exact Logged.raised rfl _ _
  · have hseq := ht.place
    rw [hpc] at hs hin hseq
    have hseq0 : s.host.seq = 0 := hseq
    rw [(htag _ hin.1).1, show l = [.request] from hs]
    show _ = opening s.runNo ++ rounds s.runNo s.host.seq
    rw [hseq0]
    rfl
  · rw [hpc] at hs hin
    obtain ⟨n, hn, h0, hl⟩ := hs
    refine Logged.loopTest rfl ?_
    show _ = opening s.runNo ++ rounds s.runNo s.host.seq
    rw [(htag _ hin.1).1, hl, hn, round_batch h0]
    simp only [List.append_assoc]
  · rw [hpc] at hs hin
    obtain ⟨ha, hrest⟩ := htag _ hin
    obtain ⟨h1, _⟩ := moveTo_pending (s := { s with replies := rest })
      (h := { s.host with pc := .returned }) rfl
    refine ⟨?_, h1.trans hrest⟩
    show _ = opening s.runNo ++ rounds s.runNo s.host.seq ++ _
    rw [ha, show l = _ from hs, List.append_assoc]
    rfl

/-! ## the window at every moment -/

theorem loopTest_over (h : Host) : h.loopTest.pc.over = false := by
  rcases h.loopTest_cases with ⟨_, he⟩ | ⟨_, he⟩
  · rw [he]
    rfl
  · rw [he]
    rfl

theorem afterData_over (c : List UInt8) (h : Host) : (Host.afterData c h).pc.over = false := by
  rcases Host.afterData_cases c h with ⟨_, he⟩ | ⟨_, he⟩
  · rw [he]
    rfl
  · rw [he]
    exact loopTest_over _

theorem logCall_reply {r : DfuReply} {rest : List DfuReply} (hl : s.replies = r :: rest) :
    logCall l s .reply t = l ++ [.answer r.runNo r.answers] := by
  unfold logCall
  rw [hl]
  rfl

/-- a run that is over does not send -/
theorem burst_of_over {e : DfuEv} (hb : burst l ≤ dfuBatchSize) (hstep : s.step crc32 e = some t)
    (hover : t.host.pc.over = true) : burst (logCall l s e t) ≤ dfuBatchSize := by
  cases e with
  | start fw => exact Nat.zero_le _
  | host e =>
    cases e with
    | send ok =>
      obtain ⟨_, h, hh, rfl⟩ := step_host hstep
      rcases Host.step_send hh with
        ⟨e, he, hfr, _⟩ | ⟨f, ⟨_, _, rfl⟩ | ⟨_, _, rfl⟩ | ⟨_, _, rfl⟩⟩
      · rw [show logCall l s (.host (.send ok)) (s.moveTo h) = l from
          if_pos (congrArg List.length hfr)]
        exact hb
      · cases hover
      · exact absurd hover (Bool.eq_false_iff.mp (afterData_over _ _))
      · cases hover
    | _ => exact hb
  | reply =>
    obtain ⟨r, rest, _, hl, _, _⟩ := step_reply hstep
    rw [logCall_reply hl, burst_answer]
    exact Nat.zero_le _
  | unheard => exact hb
  | device status => exact hb

/-- the host, the device and the log are in step -/
structure Windowed (l : List DfuCall) (s : Session) : Prop where
  lockstep : Lockstep s
  tallied : s.host.Tallied
  logged : Logged l s s.host.pc
  burst_le : burst l ≤ dfuBatchSize

theorem Windowed.init (fw : List UInt8) : Windowed [] (.init fw) :=
  ⟨Lockstep.init fw, Host.Tallied.init fw, rfl, Nat.zero_le _⟩

theorem Logged.step {e : DfuEv} (hs : Windowed l s) (hstep : s.step crc32 e = some t) :
    t.host.Tallied ∧ Logged (logCall l s e t) t t.host.pc := by
  obtain ⟨⟨_, hin⟩, ht, hlog, _⟩ := hs
  cases e with
  | start fw =>
    obtain ⟨_, rfl⟩ := step_start hstep
    exact ⟨Host.Tallied.init fw, rfl⟩
  | host e =>
    obtain ⟨hskip, h, hh, rfl⟩ := step_host hstep
    exact ⟨ht.step hh, hlog.host hskip hh⟩
  | reply =>
    obtain ⟨r, rest, h, hl, hh, rfl⟩ := step_reply hstep
    refine ⟨ht.step hh, ?_⟩
    rw [logCall_reply hl]
    exact hlog.reply hin ht hl hh
  | unheard =>
    obtain ⟨r, rest, hl, _, rfl⟩ := step_unheard hstep
    refine ⟨ht, hlog.of_same rfl rfl fun hp => ?_⟩
    rw [pending_reply hl] at hp
    cases hp
  | device status =>
    obtain ⟨m, rest, hb, rfl⟩ := step_device hstep
    obtain ⟨h1, _⟩ := take_pending hb status
    exact ⟨ht, hlog.of_same rfl rfl fun hp => h1.trans hp⟩

/-- **one more event** -/
theorem Windowed.step {e : DfuEv} (hs : Windowed l s) (hf : s.Fresh e)
    (hstep : s.step crc32 e = some t) : Windowed (logCall l s e t) t := by
  obtain ⟨ht, hlog⟩ := Logged.step hs hstep
  refine ⟨hs.lockstep.step hf hstep, ht, hlog, ?_⟩
  cases hover : t.host.pc.over with
  | false => exact hlog.burst_le hover
  | true => exact burst_of_over hs.burst_le hstep hover

theorem Windowed.run {fw : List UInt8} {evs : List DfuEv}
    (hfresh : Always (Session.step crc32) Fresh (.init fw) evs)
    (hrun : Runs.run (watch logCall (Session.step crc32)) ([], .init fw) evs = some (l, s)) :
    Windowed l s := by
  have hstep : ∀ p e q, Windowed p.1 p.2 → Fresh p.2 e →
      watch logCall (Session.step crc32) p e = some q → Windowed q.1 q.2 := by
    intro p e q hp hf hq
    obtain ⟨hst, hl⟩ := watch_some.mp hq
    rw [hl]
    exact hp.step hf hst
  exact inv_run_of (I := fun p : List DfuCall × Session => Windowed p.1 p.2) hstep
    (Windowed.init fw) (Always.watch hfresh) hrun

/-- **Host and device stay in lock-step and the flow-control window holds**, when every run starts
with no reply pending: the reply to the step just finished is the only one pending at every wait, at
most 32 frames are sent after a wait, and a run that returns has waited `2 + n / 32` times, for
these replies, and left none. -/
theorem host_in_lockstep (crc32 : List UInt8 → Nat → Nat) (fw : List UInt8) (evs : List DfuEv)
    (l : List DfuCall) (s : Session)
    (hfresh : Always (Session.step crc32) Fresh (.init fw) evs)
    (hrun : Runs.run (watch logCall (Session.step crc32)) ([], .init fw) evs = some (l, s)) :
    ((s.host.pc = .waitRequest → s.pending = [(s.runNo, .request)]) ∧
      (s.host.pc = .waitBatch → s.pending = [(s.runNo, .batch)]) ∧
      (s.host.pc = .waitCommit → s.pending = [(s.runNo, .commit)])) ∧
    burst l ≤ 32 ∧
    (s.host.pc = .returned → ∃ n, n = (s.host.firmware.length + 5) / 6 ∧
      l = opening s.runNo ++ rounds s.runNo n ++ [.commit, .answer s.runNo .commit] ∧
      waits l = 2 + n / 32 ∧ s.pending = []) := by
  obtain ⟨⟨_, hin⟩, ht, hlog, hburst⟩ := Windowed.run hfresh hrun
  refine ⟨⟨?_, ?_, ?_⟩, hburst, ?_⟩
  · intro hpc
    rw [hpc] at hin
    exact hin.1
  · intro hpc
    rw [hpc] at hin
    exact hin.1
  · intro hpc
    rw [hpc] at hin
    exact hin
  · intro hpc
    have hplace := ht.place
    rw [hpc] at hlog hplace
    obtain ⟨hl, hpend⟩ := hlog
    have hseq : s.host.seq = _ := ht.complete hplace
    refine ⟨s.host.seq, hseq, hl, ?_, hpend⟩
    rw [hl, waits_append, waits_append, waits_rounds]
    have h1 : waits (opening s.runNo) = 1 := rfl
    have h2 : waits [.commit, .answer s.runNo .commit] = 1 := rfl
    unfold dfuBatchSize
    omega

end

/-- 13 bytes in three data frames, two of which are under way at once -/
def threeFramesRun : List DfuEv :=
  [.host (.send true), .device 0, .reply, .host (.clock 0), .host (.send true), .host (.send true),
    .device 0, .device 0, .host (.send true), .device 0, .host (.clock 7), .host (.send true),
    .device 0, .reply]

theorem host_in_lockstep_threeFrames :
    ∃ l s, Runs.run (watch logCall (Session.step Crc.crc32)) ([], .init (List.replicate 13 0xA5))
        threeFramesRun = some (l, s) ∧
      s.host.pc = .returned ∧ waits l = 2 ∧ burst l ≤ 32 ∧ s.pending = [] := by
  have hfresh : Always (Session.step Crc.crc32) Fresh (.init (List.replicate 13 0xA5))
      threeFramesRun := by
    decide +kernel
  have hrun : ∃ p, Runs.run (watch logCall (Session.step Crc.crc32))
      ([], .init (List.replicate 13 0xA5)) threeFramesRun = some p ∧ p.2.host.pc = .returned ∧
        (p.2.host.firmware.length + 5) / 6 = 3 := by
    decide +kernel
  obtain ⟨⟨l, s⟩, hrun, hret, hlen⟩ := hrun
  obtain ⟨_, hburst, hdone⟩ :=
    host_in_lockstep Crc.crc32 (List.replicate 13 0xA5) threeFramesRun l s hfresh hrun
  obtain ⟨n, hn, _, hwaits, hpend⟩ := hdone hret
  rw [hn, hlen] at hwaits
  exact ⟨l, s, hrun, hret, hwaits, hburst, hpend⟩

end Session

end CCU
