import CanConverter.Lib.Server
import CanConverter.Dfu.Image

/-!
# Runs of `run_dfu` against the device

The frames of the host and the replies of the device are on their way for any time, but in order.
The device is taken from the protocol in the docstring of dfu_can.py: one reply on `0x7E2` to each
REQUEST, to every 32nd DATA frame of a session and to each COMMIT.  A run that is over may be
followed by another one, while frames and replies of the first are still on their way.

`_wait_response` takes the first reply that comes, and a reply does not say what it answers.

* `pending`           the replies in flight or still to come, by what they answer;
* `InStep.step`       when every run starts with none pending, the only one ever pending is the one
                      the host waits for;
* `commit_answered`   a run that returns has had its own COMMIT answered;
* `staleRun_shifted`  with a late reply it has not.
-/

namespace CCU
open Runs

/-- what a reply answers -/
inductive DfuStep where
  | request
  | batch
  | commit
deriving DecidableEq

structure DfuReply where
  runNo : Nat
  answers : DfuStep
  status : UInt8
deriving DecidableEq

/-- the message on the bus -/
def DfuReply.msg (r : DfuReply) : CanMsg := .ofData dfuRspId [r.status]

/-- the device takes a frame of the run `m.1`: the DATA frames of the session, and what it replies
to -/
def deviceStep (count : Nat) (m : Nat × CanMsg) : Nat × Option (Nat × DfuStep) :=
  if m.2.arbitrationId = dfuDataId then
    (count + 1, if (count + 1) % dfuBatchSize = 0 then some (m.1, .batch) else none)
  else if m.2.arbitrationId = dfuCmdId ∧ m.2.data.head? = some cmdRequest then
    (0, some (m.1, .request))
  else if m.2.arbitrationId = dfuCmdId ∧ m.2.data.head? = some cmdCommit then
    (count, some (m.1, .commit))
  else (count, none)

structure Session where
  host : Host
  /-- the number of the run -/
  runNo : Nat := 0
  /-- frames on their way to the device, each with the run that sent it -/
  inbox : List (Nat × CanMsg) := []
  /-- DATA frames since the last REQUEST, in the device -/
  count : Nat := 0
  /-- replies on their way to the host -/
  replies : List DfuReply := []
  /-- all replies so far -/
  answered : List DfuReply := []
deriving DecidableEq

inductive DfuEv where
  | start (firmware : List UInt8)
  /-- a call of the host; a message it receives is one of another node -/
  | host (e : HostEv)
  /-- the host receives the oldest reply -/
  | reply
  /-- the oldest reply comes when no run is there to receive it -/
  | unheard
  /-- the device takes the oldest frame, and replies `status` if a reply is due -/
  | device (status : UInt8)
deriving DecidableEq

/-- nothing to read for `_wait_response` -/
def HostEv.Skipped : HostEv → Prop
  | .recv msg => waitResponse msg = .skip
  | _ => True

instance : DecidablePred HostEv.Skipped
  | .recv msg => inferInstanceAs (Decidable (waitResponse msg = .skip))
  | .send _ => isTrue True.intro
  | .timeout => isTrue True.intro
  | .clock _ => isTrue True.intro

/-- the run is over -/
def HostPc.over : HostPc → Bool
  | .returned => true
  | .raised _ => true
  | _ => false

namespace Session

def init (firmware : List UInt8) : Session := { host := { firmware := firmware } }

/-- the host has moved on; what it has sent is on its way -/
def moveTo (s : Session) (h : Host) : Session :=
  { s with
    host := h
    inbox := s.inbox ++ (h.frames.drop s.host.frames.length).map (Prod.mk s.runNo) }

/-- the device is done with a frame -/
def take (s : Session) (m : Nat × CanMsg) (l : List (Nat × CanMsg)) (status : UInt8) : Session :=
  let out := (deviceStep s.count m).2.toList.map fun k => ⟨k.1, k.2, status⟩
  { s with
    inbox := l
    count := (deviceStep s.count m).1
    replies := s.replies ++ out
    answered := s.answered ++ out }

def step (crc32 : List UInt8 → Nat → Nat) (s : Session) : DfuEv → Option Session
  | .start fw =>
    if s.host.pc.over then some { s with host := { firmware := fw }, runNo := s.runNo + 1 }
    else none
  | .host e => if e.Skipped then (s.host.step crc32 e).map s.moveTo else none
  | .reply =>
    match s.replies with
    | [] => none
    | r :: l => (s.host.step crc32 (.recv r.msg)).map { s with replies := l }.moveTo
  | .unheard =>
    match s.replies with
    | [] => none
    | _ :: l => if s.host.pc.over then some { s with replies := l } else none
  | .device status =>
    match s.inbox with
    | [] => none
    | m :: l => some (s.take m l status)

/-- the replies in flight and those still to come -/
def pending (s : Session) : List (Nat × DfuStep) :=
  s.replies.map (fun r => (r.runNo, r.answers)) ++ Server.due deviceStep s.count s.inbox

/-- the DATA frames of the session, when the device has taken all frames -/
def received (s : Session) : Nat := Server.after deviceStep s.count s.inbox

/-- a run starts when no reply to an earlier one is in flight or still to come -/
def Fresh (s : Session) : DfuEv → Prop
  | .start _ => s.pending = []
  | _ => True

instance (s : Session) : DecidablePred s.Fresh
  | .start _ => inferInstanceAs (Decidable (s.pending = []))
  | .host _ => isTrue True.intro
  | .reply => isTrue True.intro
  | .unheard => isTrue True.intro
  | .device _ => isTrue True.intro

/-! ## what an event can do -/

section
variable {crc32 : List UInt8 → Nat → Nat} {s t : Session}

theorem step_start {fw : List UInt8} (hs : s.step crc32 (.start fw) = some t) :
    s.host.pc.over = true ∧
      t = { s with host := { firmware := fw }, runNo := s.runNo + 1 } := by
  simp only [step] at hs
  split at hs
  · rename_i hover
    exact ⟨hover, (Option.some.inj hs).symm⟩
  · cases hs

theorem step_host {e : HostEv} (hs : s.step crc32 (.host e) = some t) :
    e.Skipped ∧ ∃ h, s.host.step crc32 e = some h ∧ t = s.moveTo h := by
  simp only [step] at hs
  split at hs
  · rename_i hskip
    obtain ⟨h, hh, rfl⟩ := Option.map_eq_some_iff.mp hs
    exact ⟨hskip, h, hh, rfl⟩
  · cases hs

theorem step_reply (hs : s.step crc32 .reply = some t) :
    ∃ r l h, s.replies = r :: l ∧ s.host.step crc32 (.recv r.msg) = some h ∧
      t = { s with replies := l }.moveTo h := by
  simp only [step] at hs
  split at hs
  · cases hs
  · rename_i r l hl
    obtain ⟨h, hh, rfl⟩ := Option.map_eq_some_iff.mp hs
    exact ⟨r, l, h, hl, hh, rfl⟩

/-- between two runs nobody does -/
theorem step_unheard (hs : s.step crc32 .unheard = some t) :
    ∃ r l, s.replies = r :: l ∧ s.host.pc.over = true ∧ t = { s with replies := l } := by
  simp only [step] at hs
  split at hs
  · cases hs
  · rename_i r l hl
    split at hs
    · rename_i hover
      exact ⟨r, l, hl, hover, (Option.some.inj hs).symm⟩
    · cases hs

theorem step_device {status : UInt8} (hs : s.step crc32 (.device status) = some t) :
    ∃ m l, s.inbox = m :: l ∧ t = s.take m l status := by
  simp only [step] at hs
  split at hs
  · cases hs
  · rename_i m l hb
    exact ⟨m, l, hb, (Option.some.inj hs).symm⟩

end

/-! ## the device -/

theorem dfuCmdId_ne_dfuDataId : dfuCmdId ≠ dfuDataId := by decide

theorem cmdCommit_ne_cmdRequest : cmdCommit ≠ cmdRequest := by decide

section
variable {n runNo : Nat} {f : CanMsg}

theorem deviceStep_request {size : Nat} (hf : requestFrame size = some f) :
    deviceStep n (runNo, f) = (0, some (runNo, .request)) := by
  rw [(requestFrame_some hf).2]
  unfold deviceStep
  rw [if_neg (by exact dfuCmdId_ne_dfuDataId), if_pos (by exact ⟨rfl, rfl⟩)]

theorem deviceStep_data {seq : Nat} {payload : List UInt8} (hf : dataFrame seq payload = some f) :
    deviceStep n (runNo, f) =
      (n + 1, if (n + 1) % dfuBatchSize = 0 then some (runNo, .batch) else none) := by
  rw [(dataFrame_some hf).2]
  exact if_pos (by rfl)

theorem deviceStep_commit {crc : Nat} (hf : commitFrame crc = some f) :
    deviceStep n (runNo, f) = (n, some (runNo, .commit)) := by
  rw [(commitFrame_some hf).2]
  unfold deviceStep
  rw [if_neg (by exact dfuCmdId_ne_dfuDataId), if_neg, if_pos (by exact ⟨rfl, rfl⟩)]
  exact fun h => cmdCommit_ne_cmdRequest (Option.some.inj h.2)

end

theorem waitResponse_msg (r : DfuReply) : waitResponse r.msg = .status r.status :=
  if_pos (by exact ⟨rfl, rfl, Nat.le_refl 1⟩)

section
variable {crc32 : List UInt8 → Nat → Nat} {s t : Session} {h : Host}

/-! ## what moves the replies pending -/

theorem moveTo_pending (hf : h.frames = s.host.frames) :
    (s.moveTo h).pending = s.pending ∧ (s.moveTo h).received = s.received := by
  have hb : (s.moveTo h).inbox = s.inbox := by
    show s.inbox ++ (h.frames.drop s.host.frames.length).map (Prod.mk s.runNo) = s.inbox
    rw [hf, List.drop_length, List.map_nil, List.append_nil]
  unfold pending received
  rw [hb]
  exact ⟨rfl, rfl⟩

/-- what the device replies to a frame will come last -/
theorem moveTo_sent {f : CanMsg} (hf : h.frames = s.host.frames ++ [f]) :
    (s.moveTo h).pending = s.pending ++ (deviceStep s.received (s.runNo, f)).2.toList ∧
      (s.moveTo h).received = (deviceStep s.received (s.runNo, f)).1 := by
  have hb : (s.moveTo h).inbox = s.inbox ++ [(s.runNo, f)] := by
    show s.inbox ++ (h.frames.drop s.host.frames.length).map (Prod.mk s.runNo) = _
    rw [hf, List.drop_left]
    rfl
  unfold pending received
  rw [hb, Server.due_snoc, Server.after_snoc, ← List.append_assoc]
  exact ⟨rfl, rfl⟩

/-- a reply that becomes due was still to come -/
theorem take_pending {m : Nat × CanMsg} {l : List (Nat × CanMsg)} (hb : s.inbox = m :: l)
    (status : UInt8) :
    (s.take m l status).pending = s.pending ∧ (s.take m l status).received = s.received := by
  unfold pending received
  rw [hb, Server.due_cons, Server.after_cons]
  refine ⟨?_, rfl⟩
  show (s.replies ++ _).map _ ++ _ = _
  rw [List.map_append, List.append_assoc, List.map_map]
  congr 2
  exact List.map_id _

/-! ## the invariant -/

/-- the reply the host waits for is the only one pending -/
def InStep (s : Session) : HostPc → Prop
  | .sendRequest => s.pending = [] ∧ s.host.seq = 0
  | .waitRequest => s.pending = [(s.runNo, .request)] ∧ s.received = s.host.seq
  | .startClock | .sendData | .stopClock | .sendCommit =>
    s.pending = [] ∧ s.received = s.host.seq
  | .waitBatch => s.pending = [(s.runNo, .batch)] ∧ s.received = s.host.seq
  | .waitCommit => s.pending = [(s.runNo, .commit)]
  | .returned => ⟨s.runNo, .commit, statusOk⟩ ∈ s.answered
  | .raised _ => True

/-- who waits for nothing, or for nothing else, does not see the device work -/
theorem InStep.of_same {pc : HostPc} (hs : InStep s pc) (hp : t.pending = s.pending)
    (hr : t.received = s.received) (hn : t.runNo = s.runNo) (hq : t.host.seq = s.host.seq)
    (ha : s.answered ⊆ t.answered) : InStep t pc := by
  cases pc with
  | returned =>
    show _ ∈ t.answered
    rw [hn]
    exact ha hs
  | raised e => exact True.intro
  | sendRequest =>
    show t.pending = [] ∧ t.host.seq = 0
    rw [hp, hq]
    exact hs
  | waitCommit =>
    show t.pending = [(t.runNo, .commit)]
    rw [hp, hn]
    exact hs
  | waitRequest | waitBatch =>
    show t.pending = [(t.runNo, _)] ∧ t.received = t.host.seq
    rw [hp, hr, hn, hq]
    exact hs
  | startClock | sendData | stopClock | sendCommit =>
    show t.pending = [] ∧ t.received = t.host.seq
    rw [hp, hr, hq]
    exact hs

theorem InStep.of_over {pc : HostPc} (hs : InStep s pc) (hover : pc.over = true)
    (hn : t.runNo = s.runNo) (ha : t.answered = s.answered) : InStep t pc := by
  cases pc with
  | returned =>
    show _ ∈ t.answered
    rw [hn, ha]
    exact hs
  | raised e => exact True.intro
  | _ => exact nomatch hover

theorem InStep.loopTest (hh : s.host = h.loopTest) (hp : s.pending = [])
    (hr : s.received = h.seq) : InStep s s.host.pc := by
  have hsame : s.pending = [] ∧ s.received = s.host.seq := by
    refine ⟨hp, hr.trans ?_⟩
    rw [hh]
    rfl
  rcases h.loopTest_cases with ⟨_, he⟩ | ⟨_, he⟩
  · rw [hh, he]
    exact hsame
  · rw [hh, he]
    exact hsame

theorem InStep.raised {e : DfuError} (hh : h.pc = .raised e) (s : Session) : InStep s h.pc := by
  rw [hh]
  exact True.intro

/-- the host sends a frame, and waits exactly if a reply to it will come -/
theorem InStep.send {ok : Bool} (hs : InStep s s.host.pc)
    (hstep : s.host.step crc32 (.send ok) = some h) : InStep (s.moveTo h) h.pc := by
  rcases Host.step_send hstep with
    ⟨e, he, _⟩ | ⟨f, ⟨hpc, hf, rfl⟩ | ⟨hpc, hf, rfl⟩ | ⟨hpc, hf, rfl⟩⟩
  · exact InStep.raised he _
  · rw [hpc] at hs
    obtain ⟨hp, hseq⟩ := hs
    obtain ⟨h1, h2⟩ := moveTo_sent (s := s) (h := { s.host with
      frames := s.host.frames ++ [f], pc := .waitRequest }) rfl
    rw [deviceStep_request hf] at h1 h2
    rw [hp] at h1
    exact ⟨h1, h2.trans hseq.symm⟩
  · rw [hpc] at hs
    obtain ⟨hp, hr⟩ := hs
    generalize hg : ({ s.host with crc := crc32 s.host.chunk s.host.crc &&& 0xFFFFFFFF,
                                   frames := s.host.frames ++ [f] } : Host) = g
    have hseq : g.seq = s.host.seq := by rw [← hg]
    have hfr : (Host.afterData s.host.chunk g).frames = s.host.frames ++ [f] := by
      rw [Host.afterData_frames, ← hg]
    obtain ⟨h1, h2⟩ := moveTo_sent hfr
    rw [deviceStep_data hf, hr, ← hseq] at h1 h2
    rw [hp] at h1
    rcases Host.afterData_cases s.host.chunk g with ⟨h0, hd⟩ | ⟨h0, hd⟩
    · rw [if_pos h0] at h1
      rw [hd] at h1 h2 ⊢
      exact ⟨h1, h2⟩
    · rw [if_neg h0] at h1
      rw [hd] at h1 h2 ⊢
      exact InStep.loopTest rfl h1 h2
  · rw [hpc] at hs
    obtain ⟨hp, _⟩ := hs
    obtain ⟨h1, _⟩ := moveTo_sent (s := s) (h := { s.host with
      frames := s.host.frames ++ [f], pc := .waitCommit }) rfl
    rw [deviceStep_commit hf, hp] at h1
    exact h1

theorem InStep.host {e : HostEv} (hs : InStep s s.host.pc) (hskip : e.Skipped)
    (hstep : s.host.step crc32 e = some h) : InStep (s.moveTo h) h.pc := by
  cases e with
  | send ok => exact hs.send hstep
  | timeout =>
    obtain ⟨_, rfl⟩ := Host.step_timeout hstep
    exact InStep.raised rfl _
  | recv msg =>
    have hsk : waitResponse msg = .skip := hskip
    rcases Host.step_recv hstep with ⟨_, rfl⟩ | ⟨e, rfl⟩ | ⟨hok, _⟩
    · obtain ⟨h1, h2⟩ := moveTo_pending (s := s) (h := s.host) rfl
      exact hs.of_same h1 h2 rfl rfl (List.Subset.refl _)
    · exact InStep.raised rfl _
    · rw [hsk] at hok
      cases hok
  | clock now =>
    rcases Host.step_clock hstep with ⟨hpc, rfl⟩ | ⟨_, _, rfl⟩ | ⟨hpc, _, rfl⟩
    · rw [hpc] at hs
      obtain ⟨h1, h2⟩ := moveTo_pending (s := s) (h := { s.host with t0 := now }.loopTest) rfl
      exact InStep.loopTest rfl (h1.trans hs.1) (h2.trans hs.2)
    · exact InStep.raised rfl _
    · rw [hpc] at hs
      obtain ⟨h1, h2⟩ := moveTo_pending (s := s) (h := { s.host with pc := .sendCommit }) rfl
      exact ⟨h1.trans hs.1, h2.trans hs.2⟩

/-! ## the oldest reply -/

theorem pending_reply {r : DfuReply} {l : List DfuReply} (hl : s.replies = r :: l) :
    s.pending = (r.runNo, r.answers) :: { s with replies := l }.pending := by
  unfold pending
  rw [hl]
  rfl

/-- the reply received is the one the host waits for -/
theorem InStep.reply {r : DfuReply} {l : List DfuReply} (hs : InStep s s.host.pc)
    (hl : s.replies = r :: l) (hr : r ∈ s.answered)
    (hstep : s.host.step crc32 (.recv r.msg) = some h) :
    InStep ({ s with replies := l }.moveTo h) h.pc := by
  have hpend := pending_reply hl
  have hmsg := waitResponse_msg r
  rcases Host.step_recv hstep with
    ⟨hsk, _⟩ | ⟨e, rfl⟩ | ⟨hok, ⟨hpc, rfl⟩ | ⟨hpc, rfl⟩ | ⟨hpc, rfl⟩⟩
  · rw [hsk] at hmsg
    cases hmsg
  · exact InStep.raised rfl _
  · rw [hpc] at hs
    obtain ⟨h1, h2⟩ := moveTo_pending (s := { s with replies := l })
      (h := { s.host with pc := .startClock }) rfl
    exact ⟨h1.trans (List.cons.inj (hpend.symm.trans hs.1)).2, h2.trans hs.2⟩
  · rw [hpc] at hs
    obtain ⟨h1, h2⟩ := moveTo_pending (s := { s with replies := l }) (h := s.host.loopTest) rfl
    exact InStep.loopTest rfl (h1.trans (List.cons.inj (hpend.symm.trans hs.1)).2)
      (h2.trans hs.2)
  · rw [hpc] at hs
    have htag : (r.runNo, r.answers) = (s.runNo, .commit) :=
      (List.cons.inj (hpend.symm.trans hs)).1
    obtain ⟨hn, ha⟩ := Prod.mk.inj htag
    have hstatus : r.status = statusOk := Response.status.inj (hmsg.symm.trans hok)
    show (⟨s.runNo, .commit, statusOk⟩ : DfuReply) ∈ s.answered
    rw [← hn, ← ha, ← hstatus]
    exact hr

/-! ## runs -/

/-- the reply the host waits for is the only one pending, and the device has sent what is in
flight -/
structure Lockstep (s : Session) : Prop where
  told : s.replies ⊆ s.answered
  inStep : InStep s s.host.pc

theorem Lockstep.init (fw : List UInt8) : Lockstep (.init fw) :=
  ⟨List.Subset.refl _, rfl, rfl⟩

/-- **one more event** -/
theorem Lockstep.step {e : DfuEv} (hs : Lockstep s) (hf : s.Fresh e)
    (hstep : s.step crc32 e = some t) : Lockstep t := by
  obtain ⟨htold, hin⟩ := hs
  cases e with
  | start fw =>
    obtain ⟨_, rfl⟩ := step_start hstep
    exact ⟨htold, hf, rfl⟩
  | host e =>
    obtain ⟨hskip, h, hh, rfl⟩ := step_host hstep
    exact ⟨htold, hin.host hskip hh⟩
  | reply =>
    obtain ⟨r, l, h, hl, hh, rfl⟩ := step_reply hstep
    rw [hl] at htold
    exact ⟨fun r hr => htold (List.mem_cons_of_mem _ hr),
      hin.reply hl (htold List.mem_cons_self) hh⟩
  | unheard =>
    obtain ⟨r, l, hl, hover, rfl⟩ := step_unheard hstep
    rw [hl] at htold
    exact ⟨fun r hr => htold (List.mem_cons_of_mem _ hr), hin.of_over hover rfl rfl⟩
  | device status =>
    obtain ⟨m, l, hb, rfl⟩ := step_device hstep
    obtain ⟨h1, h2⟩ := take_pending hb status
    refine ⟨?_, hin.of_same h1 h2 rfl rfl (List.subset_append_left _ _)⟩
    exact List.append_subset.mpr ⟨List.Subset.trans htold (List.subset_append_left _ _),
      List.subset_append_right _ _⟩

theorem Lockstep.run {fw : List UInt8} {evs : List DfuEv}
    (hfresh : Always (Session.step crc32) Fresh (.init fw) evs)
    (hrun : Runs.run (Session.step crc32) (.init fw) evs = some s) : Lockstep s :=
  inv_run_of (fun _ _ _ hs hf ht => Lockstep.step hs hf ht) (Lockstep.init fw) hfresh hrun

/-- **The updater reports success only for its own COMMIT**, when every run starts with no reply
pending. -/
theorem commit_answered (crc32 : List UInt8 → Nat → Nat) (fw : List UInt8) (evs : List DfuEv)
    (hfresh : Always (Session.step crc32) Fresh (.init fw) evs)
    (hrun : Runs.run (Session.step crc32) (.init fw) evs = some s) (hret : s.host.pc = .returned) :
    ⟨s.runNo, .commit, statusOk⟩ ∈ s.answered := by
  have hin := (Lockstep.run hfresh hrun).inStep
  rw [hret] at hin
  exact hin

end

/-- one byte in one run; the reply to the REQUEST takes its time -/
def oneByteRun : List DfuEv :=
  [.host (.send true), .host (.recv (.ofData 0x100 [1])), .device 0, .reply, .host (.clock 0),
    .host (.send true), .device 0, .host (.clock 7), .host (.send true), .device 0, .reply]

theorem commit_answered_oneByteRun :
    ∃ s, Runs.run (Session.step Crc.crc32) (.init [0xA5]) oneByteRun = some s ∧
      s.host.pc = .returned ∧ ⟨s.runNo, .commit, statusOk⟩ ∈ s.answered := by
  have hfresh : Always (Session.step Crc.crc32) Fresh (.init [0xA5]) oneByteRun := by
    decide +kernel
  have hrun : ∃ s, Runs.run (Session.step Crc.crc32) (.init [0xA5]) oneByteRun = some s ∧
      s.host.pc = .returned := by
    decide +kernel
  obtain ⟨s, hrun, hret⟩ := hrun
  exact ⟨s, hrun, hret, commit_answered Crc.crc32 [0xA5] oneByteRun hfresh hrun hret⟩

/-- the REQUEST of the first run times out and is answered in the second, whose COMMIT gets the
reply to its own REQUEST -/
def staleRun : List DfuEv :=
  [.host (.send true), .host .timeout, .start [0xA5], .host (.send true), .device 0, .reply,
    .host (.clock 0), .host (.send true), .host (.clock 7), .host (.send true), .device 0, .reply]

theorem staleRun_shifted :
    ∃ s, Runs.run (Session.step Crc.crc32) (.init [0xA5]) staleRun = some s ∧
      s.host.pc = .returned ∧ ∀ r ∈ s.answered, ¬ (r.runNo = s.runNo ∧ r.answers = .commit) := by
  decide +kernel

end Session

end CCU
