import Mathlib.Algebra.Group.Nat.Defs
import Mathlib.Data.List.Basic
import Mathlib.Tactic.Common
import CanConverter.Lib.Run

/-!
# `run_dfu` of tools/dfu_can.py, the host of the firmware update

A run goes from one blocking call to the next: a `bus.send`, a wait for a response, a reading of
the clock.  Each is an event of the environment, which decides whether the send succeeds, which
message is received or that none is in time, and what the clock shows.  Everything between two
calls is part of the event before it.

* `waitResponse`      one message in the loop of `_wait_response`;
* `packU16`, `packU32`  `struct.pack`, `none` where it raises;
* `step_send`, …      what each event can do.
-/

namespace CCU

/-- `can.Message`; a remote frame has a `dlc` but no data -/
structure CanMsg where
  arbitrationId : Nat
  isExtendedId : Bool
  dlc : Nat
  data : List UInt8
deriving DecidableEq

def dfuCmdId : Nat := 0x7E0
def dfuDataId : Nat := 0x7E1
def dfuRspId : Nat := 0x7E2

def cmdRequest : UInt8 := 0x01
def cmdCommit : UInt8 := 0xFF
def statusOk : UInt8 := 0x00

/-- bytes per data frame -/
def dataPayload : Nat := 6

def dfuBatchSize : Nat := 32

/-- an extended data frame as the host builds it -/
def CanMsg.ofData (id : Nat) (data : List UInt8) : CanMsg :=
  { arbitrationId := id, isExtendedId := true, dlc := data.length, data := data }

/-- what a message does to `_wait_response` -/
inductive Response where
  | skip
  | status (b : UInt8)
  | indexError
deriving DecidableEq

def waitResponse (msg : CanMsg) : Response :=
  if msg.arbitrationId = dfuRspId ∧ msg.isExtendedId = true ∧ msg.dlc ≥ 1 then
    match msg.data with
    | b :: _ => .status b
    | [] => .indexError -- msg.data[0]
  else .skip

/-! ## frames of the host -/

/-- the little-endian bytes of a number -/
def leBytes : Nat → Nat → List UInt8
  | 0, _ => []
  | w + 1, n => UInt8.ofNat (n % 256) :: leBytes w (n / 256)

/-- `struct.pack("<H", n)` -/
def packU16 (n : Nat) : Option (List UInt8) := if n < 2 ^ 16 then some (leBytes 2 n) else none

/-- `struct.pack("<I", n)` -/
def packU32 (n : Nat) : Option (List UInt8) := if n < 2 ^ 32 then some (leBytes 4 n) else none

/-- the frame of `_send_request` -/
def requestFrame (imageSize : Nat) : Option CanMsg :=
  (packU32 imageSize).map fun b => .ofData dfuCmdId ([cmdRequest] ++ b)

/-- the frame of `_send_data` -/
def dataFrame (seq : Nat) (payload : List UInt8) : Option CanMsg :=
  (packU16 seq).map fun b => .ofData dfuDataId (b ++ payload)

/-- the frame of `_send_commit` -/
def commitFrame (crc32 : Nat) : Option CanMsg :=
  (packU32 crc32).map fun b => .ofData dfuCmdId ([cmdCommit] ++ b)

/-! ## the run -/

inductive DfuError where
  | timeout        -- "No response from device"
  | requestRejected (status : UInt8)
  | batchAckFailed (seq : Nat) (status : UInt8)
  | commitFailed (status : UInt8)
  | structError    -- a number does not fit its field
  | canError       -- bus.send failed
  | zeroDivision   -- no time elapsed during the upload
  | indexError     -- a response without data
deriving DecidableEq

inductive HostPc where
  | sendRequest
  | waitRequest
  | startClock
  | sendData
  | waitBatch
  | stopClock
  | sendCommit
  | waitCommit
  | returned
  | raised (e : DfuError)
deriving DecidableEq

structure Host where
  firmware : List UInt8
  pc : HostPc := .sendRequest
  crc : Nat := 0
  seq : Nat := 0
  sent : Nat := 0
  t0 : Int := 0
  /-- the frames given to `bus.send`, in order -/
  frames : List CanMsg := []
deriving DecidableEq

inductive HostEv where
  | send (ok : Bool)
  | recv (msg : CanMsg)
  | timeout
  | clock (t : Int)
deriving DecidableEq

namespace Host

def raise (h : Host) (e : DfuError) : Host := { h with pc := .raised e }

/-- the test of `while sent < image_size` -/
def loopTest (h : Host) : Host :=
  { h with pc := if h.sent < h.firmware.length then .sendData else .stopClock }

/-- `firmware[sent : sent + DATA_PAYLOAD]` -/
def chunk (h : Host) : List UInt8 := (h.firmware.drop h.sent).take dataPayload

/-- a `bus.send` of a frame, unless it could not be packed -/
def sendFrame? (h : Host) (frame : Option CanMsg) (ok : Bool) (k : Host → Host) : Host :=
  match frame with
  | none => h.raise .structError
  | some f => if ok then k { h with frames := h.frames ++ [f] } else h.raise .canError

/-- after `_send_data`: the counters, then the batch ACK or the next round -/
def afterData (c : List UInt8) (h : Host) : Host :=
  let h := { h with sent := h.sent + c.length, seq := h.seq + 1 }
  if h.seq % dfuBatchSize = 0 then { h with pc := .waitBatch } else h.loopTest

/-- one message during a wait: an OK goes on with `k`, another status raises `e` -/
def onMsg (h : Host) (msg : CanMsg) (e : UInt8 → DfuError) (k : Host → Host) : Host :=
  match waitResponse msg with
  | .skip => h
  | .indexError => h.raise .indexError
  | .status b => if b ≠ statusOk then h.raise (e b) else k h

variable (crc32 : List UInt8 → Nat → Nat)

def step (h : Host) : HostEv → Option Host
  | .send ok =>
    match h.pc with
    | .sendRequest =>
      some (h.sendFrame? (requestFrame h.firmware.length) ok fun h => { h with pc := .waitRequest })
    | .sendData =>
      let h' := { h with crc := crc32 h.chunk h.crc &&& 0xFFFFFFFF }
      some (h'.sendFrame? (dataFrame h.seq h.chunk) ok (afterData h.chunk))
    | .sendCommit =>
      some (h.sendFrame? (commitFrame h.crc) ok fun h => { h with pc := .waitCommit })
    | _ => none
  | .recv msg =>
    match h.pc with
    | .waitRequest => some (h.onMsg msg .requestRejected fun h => { h with pc := .startClock })
    | .waitBatch => some (h.onMsg msg (.batchAckFailed h.seq) loopTest)
    | .waitCommit => some (h.onMsg msg .commitFailed fun h => { h with pc := .returned })
    | _ => none
  | .timeout =>
    match h.pc with
    | .waitRequest | .waitBatch | .waitCommit => some (h.raise .timeout)
    | _ => none
  | .clock t =>
    match h.pc with
    | .startClock => some { h with t0 := t }.loopTest
    | .stopClock =>
      -- image_size / 1024 / elapsed
      if t - h.t0 = 0 then some (h.raise .zeroDivision) else some { h with pc := .sendCommit }
    | _ => none

/-! ## what a step can do -/

section
variable {crc32} {h t : Host}

/-- a send raises, or the frame is on the bus; `bus.send` is not to blame if it succeeds -/
theorem sendFrame?_cases (h : Host) (frame : Option CanMsg) (ok : Bool) (k : Host → Host) :
    (∃ e, h.sendFrame? frame ok k = h.raise e ∧ (ok = true → frame = none)) ∨
      ∃ f, frame = some f ∧ h.sendFrame? frame ok k = k { h with frames := h.frames ++ [f] } := by
  unfold sendFrame?
  cases frame with
  | none => exact .inl ⟨_, rfl, fun _ => rfl⟩
  | some f =>
    cases ok with
    | false => exact .inl ⟨_, rfl, nofun⟩
    | true => exact .inr ⟨f, rfl, rfl⟩

/-- a message is skipped, raises, or is an OK -/
theorem onMsg_cases (h : Host) (msg : CanMsg) (e : UInt8 → DfuError) (k : Host → Host) :
    (waitResponse msg = .skip ∧ h.onMsg msg e k = h) ∨ (∃ e', h.onMsg msg e k = h.raise e') ∨
      (waitResponse msg = .status statusOk ∧ h.onMsg msg e k = k h) := by
  unfold onMsg
  cases waitResponse msg with
  | skip => exact .inl ⟨rfl, rfl⟩
  | indexError => exact .inr (.inl ⟨_, rfl⟩)
  | status b =>
    by_cases hb : b = statusOk
    · rw [hb]
      exact .inr (.inr ⟨rfl, if_neg (not_not.mpr rfl)⟩)
    · exact .inr (.inl ⟨e b, if_pos hb⟩)

/-- the frame that is sent at a place of the run -/
def nextFrame (h : Host) : HostPc → Option CanMsg
  | .sendRequest => requestFrame h.firmware.length
  | .sendData => dataFrame h.seq h.chunk
  | .sendCommit => commitFrame h.crc
  | _ => none

/-- **a send** raises without a frame on the bus, or one more frame is on the bus -/
theorem step_send {ok : Bool} (hs : h.step crc32 (.send ok) = some t) :
    (∃ e, t.pc = .raised e ∧ t.frames = h.frames ∧ (ok = true → h.nextFrame h.pc = none)) ∨ ∃ f,
      (h.pc = .sendRequest ∧ requestFrame h.firmware.length = some f ∧
        t = { h with frames := h.frames ++ [f], pc := .waitRequest }) ∨
      (h.pc = .sendData ∧ dataFrame h.seq h.chunk = some f ∧
        t = afterData h.chunk
          { h with crc := crc32 h.chunk h.crc &&& 0xFFFFFFFF, frames := h.frames ++ [f] }) ∨
      (h.pc = .sendCommit ∧ commitFrame h.crc = some f ∧
        t = { h with frames := h.frames ++ [f], pc := .waitCommit }) := by
  simp only [step] at hs
  split at hs
  · rename_i hp
    obtain rfl := Option.some.inj hs
    rcases h.sendFrame?_cases _ ok _ with ⟨e, he, hok⟩ | ⟨f, hf, he⟩
    · rw [he, hp]
      exact .inl ⟨e, rfl, rfl, hok⟩
    · exact .inr ⟨f, .inl ⟨hp, hf, he⟩⟩
  · rename_i hp
    obtain rfl := Option.some.inj hs
    rcases sendFrame?_cases _ _ ok _ with ⟨e, he, hok⟩ | ⟨f, hf, he⟩
    · rw [he, hp]
      exact .inl ⟨e, rfl, rfl, hok⟩
    · exact .inr ⟨f, .inr (.inl ⟨hp, hf, he⟩)⟩
  · rename_i hp
    obtain rfl := Option.some.inj hs
    rcases h.sendFrame?_cases _ ok _ with ⟨e, he, hok⟩ | ⟨f, hf, he⟩
    · rw [he, hp]
      exact .inl ⟨e, rfl, rfl, hok⟩
    · exact .inr ⟨f, .inr (.inr ⟨hp, hf, he⟩)⟩
  · cases hs

theorem step_send_pc {ok : Bool} (hs : h.step crc32 (.send ok) = some t) :
    h.pc = .sendRequest ∨ h.pc = .sendData ∨ h.pc = .sendCommit := by
  simp only [step] at hs
  split at hs
  · rename_i hp
    exact .inl hp
  · rename_i hp
    exact .inr (.inl hp)
  · rename_i hp
    exact .inr (.inr hp)
  · cases hs

/-- **a message** is skipped, ends the run with an error, or is the OK the run waits for -/
theorem step_recv {msg : CanMsg} (hs : h.step crc32 (.recv msg) = some t) :
    (waitResponse msg = .skip ∧ t = h) ∨ (∃ e, t = h.raise e) ∨
      (waitResponse msg = .status statusOk ∧
        ((h.pc = .waitRequest ∧ t = { h with pc := .startClock }) ∨
         (h.pc = .waitBatch ∧ t = h.loopTest) ∨
         (h.pc = .waitCommit ∧ t = { h with pc := .returned }))) := by
  simp only [step] at hs
  split at hs
  · rename_i hp
    obtain rfl := Option.some.inj hs
    rcases h.onMsg_cases msg _ _ with hsk | ⟨e, he⟩ | ⟨hok, he⟩
    · exact .inl hsk
    · exact .inr (.inl ⟨e, he⟩)
    · exact .inr (.inr ⟨hok, .inl ⟨hp, he⟩⟩)
  · rename_i hp
    obtain rfl := Option.some.inj hs
    rcases h.onMsg_cases msg _ _ with hsk | ⟨e, he⟩ | ⟨hok, he⟩
    · exact .inl hsk
    · exact .inr (.inl ⟨e, he⟩)
    · exact .inr (.inr ⟨hok, .inr (.inl ⟨hp, he⟩)⟩)
  · rename_i hp
    obtain rfl := Option.some.inj hs
    rcases h.onMsg_cases msg _ _ with hsk | ⟨e, he⟩ | ⟨hok, he⟩
    · exact .inl hsk
    · exact .inr (.inl ⟨e, he⟩)
    · exact .inr (.inr ⟨hok, .inr (.inr ⟨hp, he⟩)⟩)
  · cases hs

theorem step_timeout (hs : h.step crc32 .timeout = some t) :
    (h.pc = .waitRequest ∨ h.pc = .waitBatch ∨ h.pc = .waitCommit) ∧ t = h.raise .timeout := by
  simp only [step] at hs
  split at hs
  · rename_i hp
    exact ⟨.inl hp, (Option.some.inj hs).symm⟩
  · rename_i hp
    exact ⟨.inr (.inl hp), (Option.some.inj hs).symm⟩
  · rename_i hp
    exact ⟨.inr (.inr hp), (Option.some.inj hs).symm⟩
  · cases hs

theorem step_clock {now : Int} (hs : h.step crc32 (.clock now) = some t) :
    (h.pc = .startClock ∧ t = { h with t0 := now }.loopTest) ∨
    (h.pc = .stopClock ∧ now - h.t0 = 0 ∧ t = h.raise .zeroDivision) ∨
    (h.pc = .stopClock ∧ now - h.t0 ≠ 0 ∧ t = { h with pc := .sendCommit }) := by
  simp only [step] at hs
  split at hs
  · rename_i hp
    exact .inl ⟨hp, (Option.some.inj hs).symm⟩
  · rename_i hp
    split at hs
    · rename_i h0
      exact .inr (.inl ⟨hp, h0, (Option.some.inj hs).symm⟩)
    · rename_i h0
      exact .inr (.inr ⟨hp, h0, (Option.some.inj hs).symm⟩)
  · cases hs

theorem loopTest_cases (h : Host) :
    (h.sent < h.firmware.length ∧ h.loopTest = { h with pc := .sendData }) ∨
      (h.firmware.length ≤ h.sent ∧ h.loopTest = { h with pc := .stopClock }) := by
  unfold loopTest
  by_cases hlt : h.sent < h.firmware.length
  · rw [if_pos hlt]
    exact .inl ⟨hlt, rfl⟩
  · rw [if_neg hlt]
    exact .inr ⟨Nat.not_lt.mp hlt, rfl⟩

theorem afterData_cases (c : List UInt8) (h : Host) :
    ((h.seq + 1) % dfuBatchSize = 0 ∧
      afterData c h = { h with sent := h.sent + c.length, seq := h.seq + 1, pc := .waitBatch }) ∨
    ((h.seq + 1) % dfuBatchSize ≠ 0 ∧
      afterData c h = { h with sent := h.sent + c.length, seq := h.seq + 1 }.loopTest) := by
  unfold afterData
  by_cases h0 : (h.seq + 1) % dfuBatchSize = 0
  · exact .inl ⟨h0, if_pos h0⟩
  · exact .inr ⟨h0, if_neg h0⟩

theorem afterData_frames (c : List UInt8) (h : Host) : (afterData c h).frames = h.frames := by
  rcases afterData_cases c h with ⟨_, hd⟩ | ⟨_, hd⟩
  · rw [hd]
  · rw [hd]
    rfl

/-! ## how far the loop is -/

/-- where the loop is at a place of the run -/
def At (h : Host) : HostPc → Prop
  | .sendRequest | .waitRequest | .startClock => h.seq = 0
  | .sendData => h.sent < h.firmware.length
  | .stopClock | .sendCommit | .waitCommit | .returned => h.firmware.length ≤ h.sent
  | .waitBatch | .raised _ => True

/-- `seq` data frames have been sent, all but the last one full -/
structure Tallied (h : Host) : Prop where
  tight : 6 * h.seq < h.firmware.length + 6
  sent : h.sent = min (6 * h.seq) h.firmware.length
  place : h.At h.pc

theorem Tallied.init (fw : List UInt8) : Tallied { firmware := fw } :=
  ⟨Nat.zero_lt_succ _, (Nat.zero_min _).symm, rfl⟩

theorem Tallied.loopTest (h1 : 6 * h.seq < h.firmware.length + 6)
    (h2 : h.sent = min (6 * h.seq) h.firmware.length) : h.loopTest.Tallied := by
  rcases h.loopTest_cases with ⟨hlt, he⟩ | ⟨hge, he⟩
  · rw [he]
    exact ⟨h1, h2, hlt⟩
  · rw [he]
    exact ⟨h1, h2, hge⟩

theorem Tallied.afterData (hs : h.Tallied) (hp : h.pc = .sendData) {g : Host}
    (h1 : g.firmware = h.firmware) (h2 : g.seq = h.seq) (h3 : g.sent = h.sent) :
    (Host.afterData h.chunk g).Tallied := by
  obtain ⟨ht, hsent, hat⟩ := hs
  rw [hp] at hat
  have hlt : h.sent < h.firmware.length := hat
  have hlen : h.chunk.length = min 6 (h.firmware.length - h.sent) := by
    unfold chunk dataPayload
    rw [List.length_take, List.length_drop]
  have ht' : 6 * (g.seq + 1) < g.firmware.length + 6 := by
    rw [h1, h2]
    omega
  have hsent' : g.sent + h.chunk.length = min (6 * (g.seq + 1)) g.firmware.length := by
    rw [h1, h2, h3, hlen]
    omega
  rcases Host.afterData_cases h.chunk g with ⟨_, hd⟩ | ⟨_, hd⟩
  · rw [hd]
    exact ⟨ht', hsent', True.intro⟩
  · rw [hd]
    exact Tallied.loopTest ht' hsent'

/-- a run that raises stays where it is -/
theorem Tallied.raise (hs : h.Tallied) (e : DfuError) : (h.raise e).Tallied :=
  ⟨hs.tight, hs.sent, True.intro⟩

theorem Tallied.sendFrame? (hs : h.Tallied) (frame : Option CanMsg) (ok : Bool) {k : Host → Host}
    (hk : ∀ f, (k { h with frames := h.frames ++ [f] }).Tallied) :
    (h.sendFrame? frame ok k).Tallied := by
  rcases h.sendFrame?_cases frame ok k with ⟨e, he, _⟩ | ⟨f, _, he⟩
  · rw [he]
    exact hs.raise e
  · rw [he]
    exact hk f

theorem Tallied.send {ok : Bool} (hs : h.Tallied) (hstep : h.step crc32 (.send ok) = some t) :
    t.Tallied := by
  have hplace := hs.place
  simp only [step] at hstep
  split at hstep
  · rename_i hp
    obtain rfl := Option.some.inj hstep
    rw [hp] at hplace
    exact hs.sendFrame? _ ok fun f => ⟨hs.tight, hs.sent, hplace⟩
  · rename_i hp
    obtain rfl := Option.some.inj hstep
    have hcrc : { h with crc := crc32 h.chunk h.crc &&& 0xFFFFFFFF }.Tallied :=
      ⟨hs.tight, hs.sent, hs.place⟩
    exact hcrc.sendFrame? _ ok fun f => hs.afterData hp rfl rfl rfl
  · rename_i hp
    obtain rfl := Option.some.inj hstep
    rw [hp] at hplace
    exact hs.sendFrame? _ ok fun f => ⟨hs.tight, hs.sent, hplace⟩
  · cases hstep

theorem Tallied.onMsg (hs : h.Tallied) (msg : CanMsg) (e : UInt8 → DfuError) {k : Host → Host}
    (hk : (k h).Tallied) : (h.onMsg msg e k).Tallied := by
  rcases h.onMsg_cases msg e k with ⟨_, he⟩ | ⟨e', he⟩ | ⟨_, he⟩
  · rw [he]
    exact hs
  · rw [he]
    exact hs.raise e'
  · rw [he]
    exact hk

theorem Tallied.recv {msg : CanMsg} (hs : h.Tallied) (hstep : h.step crc32 (.recv msg) = some t) :
    t.Tallied := by
  have hplace := hs.place
  simp only [step] at hstep
  split at hstep
  · rename_i hp
    obtain rfl := Option.some.inj hstep
    rw [hp] at hplace
    exact hs.onMsg msg _ ⟨hs.tight, hs.sent, hplace⟩
  · obtain rfl := Option.some.inj hstep
    exact hs.onMsg msg _ (Tallied.loopTest hs.tight hs.sent)
  · rename_i hp
    obtain rfl := Option.some.inj hstep
    rw [hp] at hplace
    exact hs.onMsg msg _ ⟨hs.tight, hs.sent, hplace⟩
  · cases hstep

/-- **the counters of the loop, after one more step** -/
theorem Tallied.step {e : HostEv} (hs : h.Tallied) (hstep : h.step crc32 e = some t) :
    t.Tallied := by
  cases e with
  | send ok => exact hs.send hstep
  | recv msg => exact hs.recv hstep
  | timeout =>
    obtain ⟨_, rfl⟩ := step_timeout hstep
    exact hs.raise .timeout
  | clock now =>
    rcases step_clock hstep with ⟨_, rfl⟩ | ⟨_, _, rfl⟩ | ⟨hp, _, rfl⟩
    · exact Tallied.loopTest hs.tight hs.sent
    · exact hs.raise .zeroDivision
    · obtain ⟨h1, h2, h3⟩ := hs
      rw [hp] at h3
      exact ⟨h1, h2, h3⟩

/-- when the loop is over, `ceil(image_size / 6)` data frames have been sent -/
theorem Tallied.complete (hs : h.Tallied) (hge : h.firmware.length ≤ h.sent) :
    h.seq = (h.firmware.length + 5) / 6 := by
  obtain ⟨h1, h2, _⟩ := hs
  omega

end

end Host

end CCU
