import CanConverter.Lib.Settle
import CanConverter.Dfu.Session

/-!
# An update comes to its end

Nothing fails: the bus sends, the device answers OK and before the timeout, and the clock goes on
during the upload.  Then the image and the commit reach the device, whatever the order of the calls
of the host, the frames taken by the device, the replies and the messages of other nodes, and the
update takes the same number of steps in each.

* `Host.left`         the steps to the end of the run, each frame with the one in which the device
                      takes it;
* `Served`            nothing fails in this step;
* `Going.step`        what every step keeps, and that its price is paid from `work`;
* `Going.enabled`     nobody waits for what does not come;
* `update_completes`  the number of steps, and the end they lead to.
-/

namespace CCU
open Runs Crc Settle

/-! ## the steps of the host -/

def HostPc.left : HostPc → Nat
  | .sendRequest => 8
  | .waitRequest => 6
  | .startClock | .waitBatch => 5
  | .sendData | .stopClock => 4
  | .sendCommit => 3
  | .waitCommit => 1
  | .returned | .raised _ => 0

namespace Host

/-- the data frames of the image -/
def chunks (h : Host) : Nat := (h.firmware.length + 5) / dataPayload

/-- two steps for a frame, one for a reply, one for a reading of the clock -/
def left (h : Host) : Nat :=
  2 * (h.chunks - h.seq) + (h.chunks / dfuBatchSize - h.seq / dfuBatchSize) + h.pc.left

/-- from `h` to `t` the host has sent `n` frames and is nearer to the end of the run by `k` steps -/
structure Advance (h t : Host) (n k : Nat) : Prop where
  left : t.left + k = h.left
  frames : t.frames.length = h.frames.length + n
  going : t.pc.over = false

section
variable {crc32 : List UInt8 → Nat → Nat} {fw : List UInt8} {h t : Host}

/-- to another place of the run -/
theorem Advance.of_pc {n k : Nat} (h1 : t.firmware = h.firmware) (h2 : t.seq = h.seq)
    (hf : t.frames.length = h.frames.length + n) (hp : t.pc.left + k = h.pc.left)
    (hg : t.pc.over = false) : Advance h t n k := by
  refine ⟨?_, hf, hg⟩
  unfold Host.left chunks
  rw [h1, h2, ← hp, Nat.add_assoc]

theorem loopTest_pc (h : Host) : h.loopTest.pc.left = 4 ∧ h.loopTest.pc.over = false := by
  rcases h.loopTest_cases with ⟨_, he⟩ | ⟨_, he⟩
  · rw [he]
    exact ⟨rfl, rfl⟩
  · rw [he]
    exact ⟨rfl, rfl⟩

/-- one data frame less to send; a reply more if a batch ends with it -/
theorem data_left {n q k : Nat} (hq : q + 1 ≤ n)
    (hk : k = if (q + 1) % dfuBatchSize = 0 then 5 else 4) :
    2 * (n - (q + 1)) + (n / dfuBatchSize - (q + 1) / dfuBatchSize) + k + 2 =
      2 * (n - q) + (n / dfuBatchSize - q / dfuBatchSize) + 4 := by
  unfold dfuBatchSize at hk ⊢
  split at hk
  · omega
  · omega

theorem Advance.data (hs : h.Tallied) (hp : h.pc = .sendData) {g : Host} {f : CanMsg}
    (h1 : g.firmware = h.firmware) (h2 : g.seq = h.seq) (hf : g.frames = h.frames ++ [f]) :
    Advance h (afterData h.chunk g) 1 2 := by
  obtain ⟨_, hsent, hplace⟩ := hs
  rw [hp] at hplace
  have hlt : h.sent < h.firmware.length := hplace
  have hseq : h.seq + 1 ≤ h.chunks := by
    show h.seq + 1 ≤ (h.firmware.length + 5) / 6
    omega
  have hleft : h.left = 2 * (h.chunks - h.seq) +
      (h.chunks / dfuBatchSize - h.seq / dfuBatchSize) + 4 := by
    unfold Host.left
    rw [hp]
    rfl
  have hchunks : g.chunks = h.chunks := by
    unfold chunks
    rw [h1]
  have hlen : (afterData h.chunk g).frames.length = h.frames.length + 1 := by
    rw [afterData_frames, hf, List.length_append, List.length_singleton]
  rcases afterData_cases h.chunk g with ⟨h0, hd⟩ | ⟨h0, hd⟩
  · rw [h2] at h0
    refine ⟨?_, hlen, ?_⟩
    · rw [hd, hleft, ← data_left hseq (if_pos h0).symm, ← hchunks, ← h2]
      rfl
    · rw [hd]
      rfl
  · rw [h2] at h0
    refine ⟨?_, hlen, ?_⟩
    · rw [hd, hleft, ← data_left hseq (if_neg h0).symm, ← hchunks, ← h2]
      unfold Host.left
      rw [(loopTest_pc _).1]
      rfl
    · rw [hd]
      exact (loopTest_pc _).2

/-- a frame whose numbers fit -/
theorem Advance.send (hs : h.Tallied) (hfit : h.nextFrame h.pc ≠ none)
    (hstep : h.step crc32 (.send true) = some t) : Advance h t 1 2 := by
  rcases step_send hstep with
    ⟨_, _, _, hnone⟩ | ⟨f, ⟨hp, _, rfl⟩ | ⟨hp, _, rfl⟩ | ⟨hp, _, rfl⟩⟩
  · exact absurd (hnone rfl) hfit
  · exact .of_pc rfl rfl List.length_append (by rw [hp]; rfl) rfl
  · exact .data hs hp rfl rfl rfl
  · exact .of_pc rfl rfl List.length_append (by rw [hp]; rfl) rfl

/-- a reading of a clock that goes on -/
theorem Advance.clock {now : Int} (hnow : h.pc = .stopClock → now - h.t0 ≠ 0)
    (hstep : h.step crc32 (.clock now) = some t) : Advance h t 0 1 := by
  rcases step_clock hstep with ⟨hp, rfl⟩ | ⟨hp, h0, _⟩ | ⟨hp, _, rfl⟩
  · refine .of_pc rfl rfl rfl ?_ (loopTest_pc _).2
    rw [(loopTest_pc _).1, hp]
    rfl
  · exact absurd h0 (hnow hp)
  · exact .of_pc rfl rfl rfl (by rw [hp]; rfl) rfl

theorem onMsg_ok {msg : CanMsg} (hw : waitResponse msg = .status statusOk)
    (e : UInt8 → DfuError) (k : Host → Host) : h.onMsg msg e k = k h := by
  rcases h.onMsg_cases msg e k with ⟨hsk, _⟩ | ⟨e', he⟩ | ⟨_, he⟩
  · rw [hsk] at hw
    cases hw
  · unfold onMsg
    rw [hw]
    exact if_neg (not_not.mpr rfl)
  · exact he

theorem onMsg_skip {msg : CanMsg} (hw : waitResponse msg = .skip) (e : UInt8 → DfuError)
    (k : Host → Host) : h.onMsg msg e k = h := by
  unfold onMsg
  rw [hw]

/-- the OK the run waits for -/
theorem step_ok {msg : CanMsg} (hw : waitResponse msg = .status statusOk)
    (hstep : h.step crc32 (.recv msg) = some t) :
    (h.pc = .waitRequest ∧ t = { h with pc := .startClock }) ∨
      (h.pc = .waitBatch ∧ t = h.loopTest) ∨
      (h.pc = .waitCommit ∧ t = { h with pc := .returned }) := by
  simp only [step, onMsg_ok hw] at hstep
  split at hstep
  · rename_i hp
    exact .inl ⟨hp, (Option.some.inj hstep).symm⟩
  · rename_i hp
    exact .inr (.inl ⟨hp, (Option.some.inj hstep).symm⟩)
  · rename_i hp
    exact .inr (.inr ⟨hp, (Option.some.inj hstep).symm⟩)
  · cases hstep

theorem Advance.ok {msg : CanMsg} (hw : waitResponse msg = .status statusOk)
    (hstep : h.step crc32 (.recv msg) = some t) :
    Advance h t 0 1 ∨ (h.pc = .waitCommit ∧ t = { h with pc := .returned }) := by
  rcases step_ok hw hstep with ⟨hp, rfl⟩ | ⟨hp, rfl⟩ | hend
  · exact .inl (.of_pc rfl rfl rfl (by rw [hp]; rfl) rfl)
  · refine .inl (.of_pc rfl rfl rfl ?_ (loopTest_pc _).2)
    rw [(loopTest_pc _).1, hp]
    rfl
  · exact .inr hend

/-- a message of another node -/
theorem step_skip {msg : CanMsg} (hw : waitResponse msg = .skip)
    (hstep : h.step crc32 (.recv msg) = some t) : t = h := by
  simp only [step, onMsg_skip hw] at hstep
  split at hstep
  · exact (Option.some.inj hstep).symm
  · exact (Option.some.inj hstep).symm
  · exact (Option.some.inj hstep).symm
  · cases hstep

/-- the sequence numbers of the image fit 16 bits, so every frame can be packed -/
theorem nextFrame_fits (hcrc : Running crc32) (hfit : fw.length ≤ 6 * 2 ^ 16)
    (hs : PcOk crc32 fw h h.pc) {ok : Bool} (hstep : h.step crc32 (.send ok) = some t) :
    h.nextFrame h.pc ≠ none := by
  rcases step_send_pc hstep with hp | hp | hp
  · rw [hp] at hs ⊢
    obtain ⟨hfw, _⟩ := hs
    show (packU32 h.firmware.length).map _ ≠ none
    rw [packU32, hfw, if_pos (by omega)]
    exact Option.some_ne_none _
  · rw [hp] at hs ⊢
    obtain ⟨hu, hlt⟩ := hs
    have hsent := hu.sent
    rw [hu.firmware] at hlt
    show (packU16 h.seq).map _ ≠ none
    rw [packU16, if_pos (by omega)]
    exact Option.some_ne_none _
  · rw [hp] at hs ⊢
    obtain ⟨hu, _⟩ := hs
    have hlt : h.crc < 2 ^ 32 := by
      rw [hu.crc]
      exact hcrc.lt _ _
    show (packU32 h.crc).map _ ≠ none
    rw [packU32, if_pos hlt]
    exact Option.some_ne_none _

/-! ## what the host can do next -/

variable (crc32) in
theorem send_enabled (hp : h.pc = .sendRequest ∨ h.pc = .sendData ∨ h.pc = .sendCommit) :
    ∃ t, h.step crc32 (.send true) = some t := by
  rcases hp with hp | hp | hp
  all_goals
    simp only [step, hp]
    exact ⟨_, rfl⟩

variable (crc32) in
theorem recv_enabled (hp : h.pc = .waitRequest ∨ h.pc = .waitBatch ∨ h.pc = .waitCommit)
    (msg : CanMsg) : ∃ t, h.step crc32 (.recv msg) = some t := by
  rcases hp with hp | hp | hp
  all_goals
    simp only [step, hp]
    exact ⟨_, rfl⟩

variable (crc32) in
/-- whatever it shows -/
theorem clock_enabled (hp : h.pc = .startClock ∨ h.pc = .stopClock) (now : Int) :
    ∃ t, h.step crc32 (.clock now) = some t := by
  rcases hp with hp | hp
  · simp only [step, hp]
    exact ⟨_, rfl⟩
  · simp only [step, hp]
    split
    · exact ⟨_, rfl⟩
    · exact ⟨_, rfl⟩

end

end Host

/-! ## the session -/

/-- a step of the update, not a message of another node -/
def DfuEv.own : DfuEv → Bool
  | .host (.recv _) => false
  | _ => true

namespace Session

/-- nothing fails in this step -/
def Served (s : Session) : DfuEv → Prop
  | .host (.send ok) => ok = true
  | .host (.recv _) | .reply => True
  | .host (.clock now) => s.host.pc = .stopClock → now - s.host.t0 ≠ 0
  | .device status => status = statusOk
  | .host .timeout | .start _ | .unheard => False

instance (s : Session) : DecidablePred s.Served
  | .host (.send ok) => inferInstanceAs (Decidable (ok = true))
  | .host (.recv _) | .reply => isTrue True.intro
  | .host (.clock now) =>
    inferInstanceAs (Decidable (s.host.pc = .stopClock → now - s.host.t0 ≠ 0))
  | .device status => inferInstanceAs (Decidable (status = statusOk))
  | .host .timeout | .start _ | .unheard => isFalse id

/-- the steps to the end of the update -/
def work (s : Session) : Nat := s.host.left + s.inbox.length

structure Going (crc32 : List UInt8 → Nat → Nat) (fw : List UInt8) (s : Session) : Prop where
  lockstep : Lockstep s
  tallied : s.host.Tallied
  sent : PcOk crc32 fw s.host s.host.pc
  ok : ∀ r ∈ s.replies, r.status = statusOk
  ends : s.host.pc.over = true → s.host.pc = .returned ∧ s.pending = []

/-- the image and the commit have reached the device, and nothing is left for a later run -/
structure Done (crc32 : List UInt8 → Nat → Nat) (fw : List UInt8) (s : Session) : Prop where
  returned : s.host.pc = .returned
  inbox : s.inbox = []
  replies : s.replies = []
  committed : Committed crc32 fw s.host

section
variable {crc32 : List UInt8 → Nat → Nat} {fw : List UInt8} {s t : Session} {h : Host}

theorem Served.unstarted {e : DfuEv} (he : s.Served e) : s.Fresh e := by
  cases e with
  | start fw => exact he.elim
  | host e => exact True.intro
  | reply => exact True.intro
  | unheard => exact True.intro
  | device status => exact True.intro

theorem moveTo_self (s : Session) : s.moveTo s.host = s := by
  unfold moveTo
  rw [List.drop_length, List.map_nil, List.append_nil]

/-! ## what a step keeps -/

/-- the host goes on -/
theorem Going.moveTo {n : Nat} (hlock : Lockstep (s.moveTo h)) (htally : h.Tallied)
    (hsent : PcOk crc32 fw h h.pc) (hok : ∀ r ∈ s.replies, r.status = statusOk)
    (ha : Host.Advance s.host h n (n + 1)) :
    Going crc32 fw (s.moveTo h) ∧ (s.moveTo h).work + 1 = s.work := by
  obtain ⟨hleft, hframes, hgoing⟩ := ha
  refine ⟨⟨hlock, htally, hsent, hok, fun hover => ?_⟩, ?_⟩
  · exact absurd (hgoing.symm.trans hover) Bool.false_ne_true
  · show h.left + (s.inbox ++ (h.frames.drop s.host.frames.length).map _).length + 1 =
      s.host.left + s.inbox.length
    rw [List.length_append, List.length_map, List.length_drop, hframes, ← hleft]
    omega

theorem Going.host (hcrc : Running crc32) (hfit : fw.length ≤ 6 * 2 ^ 16) {e : HostEv}
    (hs : Going crc32 fw s) (he : s.Served (.host e))
    (hstep : s.step crc32 (.host e) = some t) :
    Going crc32 fw t ∧ t.work + (if DfuEv.own (.host e) then 1 else 0) = s.work := by
  have hlock := hs.lockstep.step he.unstarted hstep
  obtain ⟨hskip, h, hh, rfl⟩ := step_host hstep
  have htally := hs.tallied.step hh
  have hsent := PcOk.step hcrc hs.sent hh
  cases e with
  | send ok =>
    obtain rfl : ok = true := he
    have hnext := Host.nextFrame_fits hcrc hfit hs.sent hh
    exact Going.moveTo hlock htally hsent hs.ok (.send hs.tallied hnext hh)
  | recv msg =>
    obtain rfl := Host.step_skip hskip hh
    rw [moveTo_self]
    exact ⟨hs, rfl⟩
  | timeout => exact he.elim
  | clock now => exact Going.moveTo hlock htally hsent hs.ok (.clock he hh)

theorem Going.reply (hcrc : Running crc32) (hs : Going crc32 fw s)
    (hstep : s.step crc32 .reply = some t) : Going crc32 fw t ∧ t.work + 1 = s.work := by
  have hlock := hs.lockstep.step (e := .reply) True.intro hstep
  obtain ⟨r, l, h, hl, hh, rfl⟩ := step_reply hstep
  have hok : ∀ q ∈ l, q.status = statusOk := by
    intro q hq
    exact hs.ok q (hl ▸ List.mem_cons_of_mem r hq)
  have hw : waitResponse r.msg = .status statusOk := by
    rw [waitResponse_msg, hs.ok r (hl ▸ List.mem_cons_self)]
  have htally := hs.tallied.step hh
  have hsent := PcOk.step hcrc hs.sent hh
  rcases Host.Advance.ok hw hh with ha | ⟨hp, rfl⟩
  · exact Going.moveTo hlock htally hsent hok ha
  · -- the reply to the commit was the only one pending
    have hin := hs.lockstep.inStep
    rw [hp] at hin
    obtain ⟨hpend, _⟩ := moveTo_pending (s := { s with replies := l })
      (h := { s.host with pc := .returned }) rfl
    have hnone := (List.cons.inj ((pending_reply hl).symm.trans hin)).2
    refine ⟨⟨hlock, htally, hsent, hok, fun _ => ⟨rfl, hpend.trans hnone⟩⟩, ?_⟩
    show Host.left _ + (s.inbox ++ List.map _ (s.host.frames.drop s.host.frames.length)).length + 1 =
      s.host.left + s.inbox.length
    rw [List.drop_length, List.map_nil, List.append_nil, Nat.add_right_comm]
    congr 1
    unfold Host.left
    rw [hp]
    rfl

theorem Going.device (hs : Going crc32 fw s)
    (hstep : s.step crc32 (.device statusOk) = some t) :
    Going crc32 fw t ∧ t.work + 1 = s.work := by
  have hlock := hs.lockstep.step (e := .device statusOk) True.intro hstep
  obtain ⟨m, l, hb, rfl⟩ := step_device hstep
  obtain ⟨hpend, _⟩ := take_pending hb statusOk
  refine ⟨⟨hlock, hs.tallied, hs.sent, ?_, fun hover => ?_⟩, ?_⟩
  · intro r hr
    rcases List.mem_append.mp hr with hr | hr
    · exact hs.ok r hr
    · obtain ⟨k, _, rfl⟩ := List.mem_map.mp hr
      rfl
  · exact ⟨(hs.ends hover).1, hpend.trans (hs.ends hover).2⟩
  · show s.host.left + l.length + 1 = s.host.left + s.inbox.length
    rw [hb, List.length_cons, Nat.add_assoc]

/-- **what every step keeps**, and what it costs -/
theorem Going.step (hcrc : Running crc32) (hfit : fw.length ≤ 6 * 2 ^ 16) {e : DfuEv}
    (hs : Going crc32 fw s) (he : s.Served e) (hstep : s.step crc32 e = some t) :
    Going crc32 fw t ∧ t.work + (if e.own then 1 else 0) = s.work := by
  cases e with
  | start fw => exact he.elim
  | host e => exact hs.host hcrc hfit he hstep
  | reply => exact hs.reply hcrc hstep
  | unheard => exact he.elim
  | device status =>
    obtain rfl : status = statusOk := he
    exact hs.device hstep

/-! ## nobody waits for what does not come -/

variable (crc32) in
theorem host_enabled {e : HostEv} (hskip : e.Skipped)
    (hh : ∃ h, s.host.step crc32 e = some h) : ∃ t, s.step crc32 (.host e) = some t := by
  obtain ⟨h, hh⟩ := hh
  refine ⟨s.moveTo h, ?_⟩
  simp only [step, if_pos hskip, hh]
  rfl

/-- with no frame under way the replies pending are on the bus -/
theorem replies_of_pending {a : DfuStep} (hb : s.inbox = [])
    (hp : s.pending = [(s.runNo, a)]) : ∃ r l, s.replies = r :: l := by
  unfold pending at hp
  rw [hb] at hp
  cases hl : s.replies with
  | nil =>
    rw [hl] at hp
    cases hp
  | cons r l => exact ⟨r, l, rfl⟩

variable (crc32) in
theorem reply_enabled {r : DfuReply} {l : List DfuReply} (hl : s.replies = r :: l)
    (hp : s.host.pc = .waitRequest ∨ s.host.pc = .waitBatch ∨ s.host.pc = .waitCommit) :
    ∃ t, s.step crc32 .reply = some t := by
  obtain ⟨h, hh⟩ := Host.recv_enabled crc32 hp r.msg
  refine ⟨{ s with replies := l }.moveTo h, ?_⟩
  simp only [step, hl, hh]
  rfl

theorem Going.done (hs : Going crc32 fw s) (hb : s.inbox = []) (hp : s.host.pc = .returned) :
    Done crc32 fw s := by
  have hover : s.host.pc.over = true := by
    rw [hp]
    rfl
  have hpend := (hs.ends hover).2
  have hsent := hs.sent
  rw [hp] at hsent
  exact ⟨hp, hb, List.map_eq_nil_iff.mp (List.append_eq_nil_iff.mp hpend).1, hsent⟩

theorem Going.not_raised (hs : Going crc32 fw s) (e : DfuError) : s.host.pc ≠ .raised e := by
  intro he
  have hover : s.host.pc.over = true := by
    rw [he]
    rfl
  have hret := (hs.ends hover).1
  rw [he] at hret
  cases hret

/-- **the update goes on until it is done**: the device has a frame to take, the host a call to
make, or the reply it waits for is on the bus -/
theorem Going.enabled (hs : Going crc32 fw s) (hd : ¬ Done crc32 fw s) :
    ∃ e t, e.own = true ∧ s.Served e ∧ s.step crc32 e = some t := by
  cases hb : s.inbox with
  | cons m l =>
    refine ⟨.device statusOk, s.take m l statusOk, rfl, rfl, ?_⟩
    simp only [Session.step, hb]
  | nil =>
    have hin := hs.lockstep.inStep
    have hwait (a : DfuStep) (hpend : s.pending = [(s.runNo, a)])
        (hp : s.host.pc = .waitRequest ∨ s.host.pc = .waitBatch ∨ s.host.pc = .waitCommit) :
        ∃ e t, e.own = true ∧ s.Served e ∧ s.step crc32 e = some t := by
      obtain ⟨r, l, hl⟩ := replies_of_pending hb hpend
      obtain ⟨t, ht⟩ := reply_enabled crc32 hl hp
      exact ⟨.reply, t, rfl, True.intro, ht⟩
    have hsend (hp : s.host.pc = .sendRequest ∨ s.host.pc = .sendData ∨ s.host.pc = .sendCommit) :
        ∃ e t, e.own = true ∧ s.Served e ∧ s.step crc32 e = some t := by
      obtain ⟨t, ht⟩ := host_enabled crc32 (e := .send true) True.intro
        (Host.send_enabled crc32 hp)
      exact ⟨.host (.send true), t, rfl, rfl, ht⟩
    have hclock (hp : s.host.pc = .startClock ∨ s.host.pc = .stopClock) :
        ∃ e t, e.own = true ∧ s.Served e ∧ s.step crc32 e = some t := by
      obtain ⟨t, ht⟩ := host_enabled crc32 (e := .clock (s.host.t0 + 1)) True.intro
        (Host.clock_enabled crc32 hp _)
      refine ⟨.host (.clock (s.host.t0 + 1)), t, rfl, fun _ => ?_, ht⟩
      omega
    cases hp : s.host.pc with
    | sendRequest => exact hsend (.inl hp)
    | sendData => exact hsend (.inr (.inl hp))
    | sendCommit => exact hsend (.inr (.inr hp))
    | startClock => exact hclock (.inl hp)
    | stopClock => exact hclock (.inr hp)
    | waitRequest =>
      rw [hp] at hin
      exact hwait .request hin.1 (.inl hp)
    | waitBatch =>
      rw [hp] at hin
      exact hwait .batch hin.1 (.inr (.inl hp))
    | waitCommit =>
      rw [hp] at hin
      exact hwait .commit hin (.inr (.inr hp))
    | returned => exact absurd (hs.done hb hp) hd
    | raised e => exact absurd hp (hs.not_raised e)

/-! ## a whole update -/

theorem Going.start (hh : s.host = { firmware := fw }) (hp : s.pending = []) :
    Going crc32 fw s := by
  have hl : s.replies = [] := List.map_eq_nil_iff.mp (List.append_eq_nil_iff.mp hp).1
  refine ⟨⟨?_, ?_⟩, ?_, ?_, ?_, ?_⟩
  · rw [hl]
    exact List.nil_subset _
  · rw [hh]
    refine ⟨hp, ?_⟩
    rw [hh]
  · rw [hh]
    exact Host.Tallied.init fw
  · rw [hh]
    exact ⟨rfl, rfl, rfl, rfl, rfl⟩
  · rw [hl]
    exact fun r hr => absurd hr List.not_mem_nil
  · rw [hh]
    exact nofun

/-- the steps of an update of `n` bytes that begins with `k` frames under way -/
def updateSteps (n k : Nat) : Nat := 2 * ((n + 5) / 6) + (n + 5) / 6 / 32 + 8 + k

theorem work_start (hh : s.host = { firmware := fw }) :
    s.work = updateSteps fw.length s.inbox.length := by
  unfold work
  rw [hh]
  show 2 * ((fw.length + 5) / 6 - 0) + ((fw.length + 5) / 6 / 32 - 0 / 32) + 8 + s.inbox.length = _
  rw [Nat.zero_div, Nat.sub_zero, Nat.sub_zero]
  rfl

theorem Going.done_iff (hcrc : Running crc32) (hfit : fw.length ≤ 6 * 2 ^ 16)
    (hs : Going crc32 fw s) : Done crc32 fw s ↔ s.work = 0 := by
  constructor
  · rintro ⟨hret, hb, _, _⟩
    have hplace := hs.tallied.place
    rw [hret] at hplace
    have hseq : s.host.seq = s.host.chunks := hs.tallied.complete hplace
    unfold work Host.left
    rw [hb, hret, hseq, Nat.sub_self, Nat.sub_self]
    rfl
  · exact spent (P := Served) (m := work)
      (fun _ _ _ hs he ht => hs.step hcrc hfit he ht) (fun _ hs hd => hs.enabled hd) hs

/-- **An update in which nothing fails comes to its end**: in every order it takes the same number
of steps, it never raises, and it can always go on until the device has all of the image. -/
theorem update_completes {s₀ : Session} {evs : List DfuEv} (hcrc : Running crc32)
    (hfit : fw.length ≤ 6 * 2 ^ 16) (hh : s₀.host = { firmware := fw }) (hp : s₀.pending = [])
    (hserved : Always (Session.step crc32) Served s₀ evs)
    (hrun : Runs.run (Session.step crc32) s₀ evs = some s) :
    evs.countP DfuEv.own ≤ updateSteps fw.length s₀.inbox.length ∧
    (Done crc32 fw s ↔ evs.countP DfuEv.own = updateSteps fw.length s₀.inbox.length) ∧
    (∀ e, s.host.pc ≠ .raised e) ∧
    ∃ t, Reaches (Session.step crc32) Served s t ∧ Done crc32 fw t := by
  have h0 : Going crc32 fw s₀ := Going.start hh hp
  have hstep : ∀ s e t, Going crc32 fw s → s.Served e → s.step crc32 e = some t →
      Going crc32 fw t ∧ t.work + (if e.own then 1 else 0) = s.work :=
    fun _ _ _ hs he ht => hs.step hcrc hfit he ht
  have hs : Going crc32 fw s :=
    inv_run_of (fun s e t hs he ht => (hstep s e t hs he ht).1) h0 hserved hrun
  have hcount := countP_add hstep h0 hserved hrun
  rw [work_start hh] at hcount
  refine ⟨by omega, ?_, hs.not_raised, rests hstep (fun _ hs hd => hs.enabled hd) hs⟩
  rw [hs.done_iff hcrc hfit]
  omega

end

/-- one byte, with a frame of another node among the steps -/
theorem update_completes_oneByteRun :
    ∃ s, Runs.run (Session.step Crc.crc32) (.init [0xA5]) oneByteRun = some s ∧
      Done Crc.crc32 [0xA5] s := by
  have hserved : Always (Session.step Crc.crc32) Served (.init [0xA5]) oneByteRun := by
    decide +kernel
  have hrun : (Runs.run (Session.step Crc.crc32) (.init [0xA5]) oneByteRun).isSome = true := by
    decide +kernel
  obtain ⟨s, hrun⟩ := Option.isSome_iff_exists.mp hrun
  have hfit : [(0xA5 : UInt8)].length ≤ 6 * 2 ^ 16 := by decide
  have h := update_completes Crc.crc32_running hfit rfl rfl hserved hrun
  exact ⟨s, hrun, h.2.1.mpr (by decide)⟩

end Session

end CCU
