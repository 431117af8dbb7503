import Mathlib.Algebra.Group.Int.Defs
import Mathlib.Algebra.Ring.Rat
import CanConverter.Dfu.Session

/-!
# How an upload can fail

`Upload` is `run_dfu` with the arguments of `main`: the host of an upload, and in every round of its
loop the progress line, which divides twice, and `time.sleep(frame_delay)`.

The bus always sends, the messages of the device are data frames, and the clock shows `t0` before
the first and `t1` after the last data frame.  At which delays and readings of the clock `time.sleep`
raises is up to the platform: `sleepRaises` is any such rule.

* `Fine`                 the run has returned, has raised an error the device is the cause of, or
                         goes on;
* `Sound.step`           nothing else happens with a short image, a delay that can be slept at any
                         reading up to `t1`, and `t0 < t1`;
* `loop_reached`         a device that answers every wait lets the loop come to any round;
* `upload_fine_iff`      exactly then the device is the only cause of a failure.
-/

namespace CCU
open Runs

/-! ## Python numbers -/

/-- a Python float; the finite ones are taken to be exact -/
inductive PyFloat where
  | nan
  | negInf
  | posInf
  | fin (q : Rat)
deriving DecidableEq

/-- `x / 1000.0` -/
def PyFloat.perThousand : PyFloat → PyFloat
  | .fin q => .fin (q / 1000)
  | x => x

/-- `x > 0` -/
def PyFloat.Pos : PyFloat → Prop
  | .posInf => True
  | .fin q => 0 < q
  | _ => False

/-- `time.sleep(x)` of CPython, `x > 0`, when its clock shows `now` nanoseconds: it raises
`OverflowError` if the delay, and `OSError` if the deadline is too large for 64 bits -/
def PyFloat.sleepRaises64 : PyFloat → Int → Bool
  | .posInf, _ => true
  | .fin q, now =>
    let delay := (q * 10 ^ 9).ceil
    (2 ^ 63 : Int) ≤ delay ∨ (2 ^ 63 : Int) ≤ now + delay
  | _, _ => false

instance : DecidablePred PyFloat.Pos
  | .posInf => isTrue True.intro
  | .fin q => inferInstanceAs (Decidable (0 < q))
  | .nan | .negInf => isFalse id

/-- `a / b`, `none` where it raises -/
def pyDiv (a b : Rat) : Option Rat := if b = 0 then none else some (a / b)

/-! ## the upload -/

/-- what the run does next -/
inductive Stage where
  | host
  | progress
  | sleep
  | sleepError
deriving DecidableEq

structure Upload where
  host : Host
  frameDelay : PyFloat
  stage : Stage := .host
deriving DecidableEq

inductive UploadEv where
  | host (e : HostEv)
  | progress (now : Int)
  | sleep (now : Int)
deriving DecidableEq

namespace Upload

def init (firmware : List UInt8) (frameDelayMs : PyFloat) : Upload :=
  { host := { firmware := firmware }, frameDelay := frameDelayMs.perThousand }

/-- the rest of a round begins when its frame is sent, and again when its batch ACK is there -/
def nextStage (pc pc' : HostPc) : Stage :=
  match pc' with
  | .raised _ => .host
  | _ => if pc = .sendData then .progress else if pc = .waitBatch ∧ pc' ≠ .waitBatch then .sleep else .host

/-- `(sent / 1024) / elapsed if elapsed > 0 else 0` -/
def kbps (h : Host) (elapsed : Int) : Option Rat :=
  if elapsed > 0 then pyDiv (h.sent / 1024) elapsed else some 0

/-- `pct` and `kbps` -/
def progressLine (h : Host) (now : Int) : Option (Rat × Rat) :=
  (pyDiv h.sent h.firmware.length).bind fun pct =>
    (kbps h (now - h.t0)).map fun kbps => (pct * 100, kbps)

variable (crc32 : List UInt8 → Nat → Nat) (sleepRaises : PyFloat → Int → Bool)

def step (u : Upload) : UploadEv → Option Upload
  | .host e =>
    match u.stage with
    | .host =>
      (u.host.step crc32 e).map fun h => { u with host := h, stage := nextStage u.host.pc h.pc }
    | _ => none
  | .progress now =>
    match u.stage with
    | .progress =>
      match progressLine u.host now with
      | none => some { u with host := u.host.raise .zeroDivision, stage := .host }
      | some _ => some { u with stage := if u.host.pc = .waitBatch then .host else .sleep }
    | _ => none
  | .sleep now =>
    match u.stage with
    | .sleep =>
      if u.frameDelay.Pos ∧ sleepRaises u.frameDelay now = true then
        some { u with stage := .sleepError }
      else some { u with stage := .host }
    | _ => none

/-! ## failures of the device and others -/

/-- an error that the device is the cause of -/
def ByDevice : DfuError → Prop
  | .timeout | .requestRejected _ | .batchAckFailed _ _ | .commitFailed _ => True
  | _ => False

/-- the bus sends, messages are data frames, the clock shows `t0`, then `t1`, and never goes back -/
def Benign (t0 t1 : Int) (u : Upload) : UploadEv → Prop
  | .host (.send ok) => ok = true
  | .host (.recv msg) => msg.dlc = msg.data.length
  | .host (.clock t) => (u.host.pc = .startClock → t = t0) ∧ (u.host.pc = .stopClock → t = t1)
  | .host .timeout => True
  | .progress now | .sleep now => t0 ≤ now ∧ now ≤ t1

instance (t0 t1 : Int) (u : Upload) : DecidablePred (Benign t0 t1 u)
  | .host (.send ok) => inferInstanceAs (Decidable (ok = true))
  | .host (.recv msg) => inferInstanceAs (Decidable (msg.dlc = msg.data.length))
  | .host (.clock t) =>
    inferInstanceAs
      (Decidable ((u.host.pc = .startClock → t = t0) ∧ (u.host.pc = .stopClock → t = t1)))
  | .host .timeout => isTrue True.intro
  | .progress now | .sleep now => inferInstanceAs (Decidable (t0 ≤ now ∧ now ≤ t1))

/-- the run has returned, has failed because of the device, or goes on -/
def Fine (t0 t1 : Int) (u : Upload) : Prop :=
  match u.stage, u.host.pc with
  | .sleepError, _ => False
  | .host, .returned => True
  | .host, .raised e => ByDevice e
  | _, _ => ∃ e t, Benign t0 t1 u e ∧ u.step crc32 sleepRaises e = some t

section
variable {crc32 sleepRaises} {t0 t1 : Int} {u v : Upload} {h : Host}

theorem fine_of (h01 : t0 ≤ t1) (hst : u.stage ≠ .sleepError)
    (hpc : ∀ e, u.host.pc = .raised e → ByDevice e) : Fine crc32 sleepRaises t0 t1 u := by
  unfold Fine
  cases hs : u.stage with
  | sleepError => exact absurd hs hst
  | progress =>
    have hstep : ∃ v, u.step crc32 sleepRaises (.progress t0) = some v := by
      simp only [step, hs]
      split
      · exact ⟨_, rfl⟩
      · exact ⟨_, rfl⟩
    obtain ⟨v, hv⟩ := hstep
    exact ⟨.progress t0, v, ⟨Int.le_refl _, h01⟩, hv⟩
  | sleep =>
    have hstep : ∃ v, u.step crc32 sleepRaises (.sleep t0) = some v := by
      simp only [step, hs]
      split
      · exact ⟨_, rfl⟩
      · exact ⟨_, rfl⟩
    obtain ⟨v, hv⟩ := hstep
    exact ⟨.sleep t0, v, ⟨Int.le_refl _, h01⟩, hv⟩
  | host =>
    have hgo : ∀ e, Benign t0 t1 u (.host e) → (u.host.step crc32 e).isSome = true →
        ∃ e v, Benign t0 t1 u e ∧ u.step crc32 sleepRaises e = some v := by
      intro e hb hh
      obtain ⟨h, hh⟩ := Option.isSome_iff_exists.mp hh
      refine ⟨.host e, { u with host := h, stage := nextStage u.host.pc h.pc }, hb, ?_⟩
      simp only [step, hs, hh, Option.map_some]
    cases hp : u.host.pc with
    | returned => exact True.intro
    | raised e => exact hpc e hp
    | sendRequest | sendData | sendCommit =>
      refine hgo (.send true) rfl ?_
      simp only [Host.step, hp]
      rfl
    | waitRequest | waitBatch | waitCommit =>
      refine hgo .timeout True.intro ?_
      simp only [Host.step, hp]
      rfl
    | startClock =>
      refine hgo (.clock t0) ⟨fun _ => rfl, fun h => ?_⟩ ?_
      · rw [hp] at h
        cases h
      · simp only [Host.step, hp]
        rfl
    | stopClock =>
      refine hgo (.clock t1) ⟨fun h => ?_, fun _ => rfl⟩ ?_
      · rw [hp] at h
        cases h
      · simp only [Host.step, hp]
        split
        · rfl
        · rfl

/-! ## nothing but the device -/

/-- what holds at a place of the run -/
def OkAt (t0 : Int) (h : Host) : HostPc → Prop
  | .sendRequest | .waitRequest | .startClock => True
  | .raised e => ByDevice e
  | _ => h.t0 = t0

/-- all is well so far -/
structure Sound (t0 : Int) (fw : List UInt8) (d : PyFloat) (u : Upload) : Prop where
  firmware : u.host.firmware = fw
  frameDelay : u.frameDelay = d
  tallied : u.host.Tallied
  crc : u.host.crc < 2 ^ 32
  place : OkAt t0 u.host u.host.pc
  stage : u.stage ≠ .sleepError

theorem packU16_some {n : Nat} (h : n < 2 ^ 16) : packU16 n = some (leBytes 2 n) := if_pos h

theorem packU32_some {n : Nat} (h : n < 2 ^ 32) : packU32 n = some (leBytes 4 n) := if_pos h

theorem mask_lt (n : Nat) : n &&& 0xFFFFFFFF < 2 ^ 32 :=
  Nat.and_lt_two_pow n (by decide)

theorem okAt_loopTest (hh : h.t0 = t0) : OkAt t0 h.loopTest h.loopTest.pc := by
  rcases h.loopTest_cases with ⟨_, he⟩ | ⟨_, he⟩
  · rw [he]
    exact hh
  · rw [he]
    exact hh

theorem okAt_afterData (c : List UInt8) (hh : h.t0 = t0) :
    OkAt t0 (Host.afterData c h) (Host.afterData c h).pc := by
  rcases Host.afterData_cases c h with ⟨_, he⟩ | ⟨_, he⟩
  · rw [he]
    exact hh
  · rw [he]
    exact okAt_loopTest hh

theorem afterData_crc (c : List UInt8) (h : Host) : (Host.afterData c h).crc = h.crc := by
  rcases Host.afterData_cases c h with ⟨_, he⟩ | ⟨_, he⟩
  · rw [he]
  · rw [he]
    rfl

theorem afterData_firmware (c : List UInt8) (h : Host) :
    (Host.afterData c h).firmware = h.firmware := by
  rcases Host.afterData_cases c h with ⟨_, he⟩ | ⟨_, he⟩
  · rw [he]
  · rw [he]
    rfl

/-- a data frame has a first byte to read -/
theorem waitResponse_data {msg : CanMsg} (hd : msg.dlc = msg.data.length) :
    waitResponse msg ≠ .indexError := by
  unfold waitResponse
  split
  · rename_i hc
    cases hm : msg.data with
    | nil =>
      rw [hm] at hd
      exact absurd hc.2.2 (by rw [hd]; exact Nat.not_succ_le_zero 0)
    | cons b l => exact nofun
  · exact nofun

theorem onMsg_byDevice {msg : CanMsg} (hd : msg.dlc = msg.data.length) {e : UInt8 → DfuError}
    (he : ∀ b, ByDevice (e b)) {k : Host → Host} {e' : DfuError}
    (hk : (k h).pc ≠ .raised e') (hh : h.pc ≠ .raised e')
    (hp : (h.onMsg msg e k).pc = .raised e') : ByDevice e' := by
  unfold Host.onMsg at hp
  split at hp
  · exact absurd hp hh
  · rename_i hm
    exact absurd hm (waitResponse_data hd)
  · rename_i b _
    split at hp
    · rw [← HostPc.raised.inj hp]
      exact he b
    · exact absurd hp hk

/-- a message that ends the run with an error is a reply that is not OK -/
theorem recv_byDevice {msg : CanMsg} (hd : msg.dlc = msg.data.length)
    (hstep : u.host.step crc32 (.recv msg) = some h) {e : DfuError} (hp : h.pc = .raised e) :
    ByDevice e := by
  have hloop : ∀ g : Host, g.loopTest.pc ≠ .raised e := by
    intro g
    rcases g.loopTest_cases with ⟨_, he⟩ | ⟨_, he⟩
    · rw [he]
      exact nofun
    · rw [he]
      exact nofun
  have hpcs : ∀ pc : HostPc, pc.over = false → pc ≠ .raised e := by
    rintro pc hover rfl
    cases hover
  have hreq : ∀ b, ByDevice (.requestRejected b) := fun _ => True.intro
  have hbatch : ∀ b, ByDevice (.batchAckFailed u.host.seq b) := fun _ => True.intro
  have hcommit : ∀ b, ByDevice (.commitFailed b) := fun _ => True.intro
  simp only [Host.step] at hstep
  split at hstep
  · rename_i hpc
    rw [← Option.some.inj hstep] at hp
    exact onMsg_byDevice hd hreq (hpcs .startClock rfl) (hpc ▸ hpcs .waitRequest rfl) hp
  · rename_i hpc
    rw [← Option.some.inj hstep] at hp
    exact onMsg_byDevice hd hbatch (hloop _) (hpc ▸ hpcs .waitBatch rfl) hp
  · rename_i hpc
    rw [← Option.some.inj hstep] at hp
    exact onMsg_byDevice hd hcommit (by rintro ⟨⟩) (hpc ▸ hpcs .waitCommit rfl) hp
  · cases hstep

variable (sleepRaises) in
/-- the inputs of an upload that only the device can make fail -/
structure Harmless (fw : List UInt8) (d : PyFloat) (t0 t1 : Int) : Prop where
  size : fw.length ≤ dataPayload * 2 ^ 16
  delay : ∀ now, t0 ≤ now → now ≤ t1 → ¬ (d.Pos ∧ sleepRaises d now = true)
  clock : t0 < t1

section
variable {fw : List UInt8} {d : PyFloat}

/-- every frame can be packed -/
theorem Sound.nextFrame (hs : Sound t0 fw d u) (hlen : fw.length ≤ dataPayload * 2 ^ 16)
    (hpc : u.host.pc = .sendRequest ∨ u.host.pc = .sendData ∨ u.host.pc = .sendCommit) :
    u.host.nextFrame u.host.pc ≠ none := by
  have hplace := hs.tallied.place
  have hsent := hs.tallied.sent
  have hfw := hs.firmware
  have hsize : fw.length ≤ 6 * 2 ^ 16 := hlen
  rcases hpc with hp | hp | hp
  · rw [hp]
    unfold Host.nextFrame requestFrame
    rw [hfw, packU32_some (by omega)]
    exact nofun
  · rw [hp] at hplace ⊢
    have hlt : u.host.sent < u.host.firmware.length := hplace
    rw [hfw] at hlt hsent
    unfold Host.nextFrame dataFrame
    rw [packU16_some (by omega)]
    exact nofun
  · rw [hp]
    unfold Host.nextFrame commitFrame
    rw [packU32_some hs.crc]
    exact nofun

theorem Sound.host {e : HostEv} (hs : Sound t0 fw d u) (hok : Harmless sleepRaises fw d t0 t1)
    (hb : Benign t0 t1 u (.host e)) (hstep : u.host.step crc32 e = some h) :
    h.firmware = fw ∧ h.crc < 2 ^ 32 ∧ OkAt t0 h h.pc := by
  have hframe := hs.nextFrame hok.size
  obtain ⟨hfw, _, _, hcrc, hplace, _⟩ := hs
  cases e with
  | send ok =>
    have hsend : ok = true := hb
    rcases Host.step_send hstep with
      ⟨e, _, _, hn⟩ | ⟨f, ⟨hp, _, rfl⟩ | ⟨hp, _, rfl⟩ | ⟨hp, _, rfl⟩⟩
    · exact absurd (hn hsend) (hframe (Host.step_send_pc hstep))
    · exact ⟨hfw, hcrc, True.intro⟩
    · rw [hp] at hplace
      rw [afterData_crc, afterData_firmware]
      exact ⟨hfw, mask_lt _, okAt_afterData _ hplace⟩
    · rw [hp] at hplace
      exact ⟨hfw, hcrc, hplace⟩
  | recv msg =>
    rcases Host.step_recv hstep with
      ⟨_, rfl⟩ | ⟨e, rfl⟩ | ⟨_, ⟨hp, rfl⟩ | ⟨hp, rfl⟩ | ⟨hp, rfl⟩⟩
    · exact ⟨hfw, hcrc, hplace⟩
    · exact ⟨hfw, hcrc, recv_byDevice hb hstep rfl⟩
    · exact ⟨hfw, hcrc, True.intro⟩
    · rw [hp] at hplace
      exact ⟨hfw, hcrc, okAt_loopTest hplace⟩
    · rw [hp] at hplace
      exact ⟨hfw, hcrc, hplace⟩
  | timeout =>
    obtain ⟨_, rfl⟩ := Host.step_timeout hstep
    exact ⟨hfw, hcrc, True.intro⟩
  | clock now =>
    rcases Host.step_clock hstep with ⟨hp, rfl⟩ | ⟨hp, h0, _⟩ | ⟨hp, _, rfl⟩
    · exact ⟨hfw, hcrc, okAt_loopTest (hb.1 hp)⟩
    · rw [hp] at hplace
      have hread : now = t1 := hb.2 hp
      have hstart : u.host.t0 = t0 := hplace
      have hclock := hok.clock
      omega
    · rw [hp] at hplace
      exact ⟨hfw, hcrc, hplace⟩

theorem nextStage_ne (pc pc' : HostPc) : nextStage pc pc' ≠ .sleepError := by
  unfold nextStage
  split
  · exact nofun
  · split
    · exact nofun
    · split
      · exact nofun
      · exact nofun

/-- both divisions of the progress line are guarded -/
theorem progressLine_some (hne : h.firmware ≠ []) (now : Int) :
    ∃ r, progressLine h now = some r := by
  have hlen : (h.firmware.length : Rat) ≠ 0 := by
    rw [Ne, Rat.natCast_eq_zero_iff, List.length_eq_zero_iff]
    exact hne
  have hkbps : ∃ k, kbps h (now - h.t0) = some k := by
    unfold kbps
    split
    · rename_i hpos
      have hdiv : ((now - h.t0 : Int) : Rat) ≠ 0 := by
        rw [Ne, Rat.intCast_eq_zero_iff]
        exact Int.ne_of_gt hpos
      exact ⟨_, if_neg hdiv⟩
    · exact ⟨0, rfl⟩
  obtain ⟨k, hk⟩ := hkbps
  unfold progressLine pyDiv
  rw [if_neg hlen, hk]
  exact ⟨_, rfl⟩

/-- **one more step of a harmless upload** -/
theorem Sound.step {e : UploadEv} (hs : Sound t0 fw d u) (hfw : fw ≠ [])
    (hok : Harmless sleepRaises fw d t0 t1) (hb : Benign t0 t1 u e)
    (hstep : u.step crc32 sleepRaises e = some v) :
    Sound t0 fw d v := by
  cases e with
  | host e =>
    simp only [Upload.step] at hstep
    split at hstep
    · obtain ⟨h, hh, rfl⟩ := Option.map_eq_some_iff.mp hstep
      obtain ⟨h1, h2, h3⟩ := hs.host hok hb hh
      exact ⟨h1, hs.frameDelay, hs.tallied.step hh, h2, h3, nextStage_ne _ _⟩
    · cases hstep
  | progress now =>
    have hne : u.host.firmware ≠ [] := by
      rw [hs.firmware]
      exact hfw
    simp only [Upload.step] at hstep
    split at hstep
    · split at hstep
      · rename_i hnone
        obtain ⟨r, hr⟩ := progressLine_some hne now
        exact nomatch hnone.symm.trans hr
      · obtain rfl := Option.some.inj hstep
        refine ⟨hs.firmware, hs.frameDelay, hs.tallied, hs.crc, hs.place, ?_⟩
        show (if u.host.pc = .waitBatch then Stage.host else Stage.sleep) ≠ .sleepError
        split
        · exact nofun
        · exact nofun
    · cases hstep
  | sleep now =>
    simp only [Upload.step] at hstep
    split at hstep
    · split at hstep
      · rename_i hlong
        rw [hs.frameDelay] at hlong
        exact absurd hlong (hok.delay now hb.1 hb.2)
      · obtain rfl := Option.some.inj hstep
        exact ⟨hs.firmware, hs.frameDelay, hs.tallied, hs.crc, hs.place, nofun⟩
    · cases hstep

/-- a harmless upload fails only because of the device -/
theorem Sound.fine (hfw : fw ≠ []) {delayMs : PyFloat}
    (hok : Harmless sleepRaises fw delayMs.perThousand t0 t1)
    (hu : Reaches (Upload.step crc32 sleepRaises) (Benign t0 t1) (init fw delayMs) u) :
    Fine crc32 sleepRaises t0 t1 u := by
  have hinit : Sound t0 fw delayMs.perThousand (init fw delayMs) :=
    ⟨rfl, rfl, Host.Tallied.init fw, Nat.zero_lt_succ _, True.intro, nofun⟩
  have hs := hu.inv (fun _ _ _ hs hb hstep => Sound.step hs hfw hok hb hstep) hinit
  refine fine_of (Int.le_of_lt hok.clock) hs.stage fun e he => ?_
  have hplace := hs.place
  rw [he] at hplace
  exact hplace

/-! ## a device that answers every wait -/

/-- the loop has sent `k` data frames and does the step `stage` of a round -/
structure InLoop (fw : List UInt8) (d : PyFloat) (t0 : Int) (stage : Stage) (k : Nat) (u : Upload) :
    Prop where
  firmware : u.host.firmware = fw
  frameDelay : u.frameDelay = d
  tallied : u.host.Tallied
  seq : u.host.seq = k
  clock : u.host.t0 = t0
  place : u.host.pc = .sendData ∨ u.host.pc = .stopClock
  stage_eq : u.stage = stage

theorem loopTest_pc (h : Host) : h.loopTest.pc = .sendData ∨ h.loopTest.pc = .stopClock := by
  rcases h.loopTest_cases with ⟨_, he⟩ | ⟨_, he⟩
  · rw [he]
    exact .inl rfl
  · rw [he]
    exact .inr rfl

variable (sleepRaises) in
theorem step_host {e : HostEv} (hst : u.stage = .host) (hh : u.host.step crc32 e = some h) :
    u.step crc32 sleepRaises (.host e) =
      some { u with host := h, stage := nextStage u.host.pc h.pc } := by
  simp only [Upload.step, hst, hh, Option.map_some]

theorem InLoop.sendData {k : Nat} (hs : InLoop fw d t0 .host k u) (hlt : 6 * k < fw.length) :
    u.host.pc = .sendData := by
  rcases hs.place with hp | hp
  · exact hp
  · have hplace := hs.tallied.place
    have hsent := hs.tallied.sent
    rw [hp] at hplace
    have hge : u.host.firmware.length ≤ u.host.sent := hplace
    rw [hs.firmware] at hge hsent
    rw [hs.seq] at hsent
    omega

theorem InLoop.stopClock {stage : Stage} {k : Nat} (hs : InLoop fw d t0 stage k u)
    (hge : fw.length ≤ 6 * k) : u.host.pc = .stopClock := by
  rcases hs.place with hp | hp
  · have hplace := hs.tallied.place
    have hsent := hs.tallied.sent
    rw [hp] at hplace
    have hlt : u.host.sent < u.host.firmware.length := hplace
    rw [hs.firmware] at hlt hsent
    rw [hs.seq] at hsent
    omega
  · exact hp

theorem step_batchAck (crc32 : List UInt8 → Nat → Nat) (hp : h.pc = .waitBatch) :
    h.step crc32 (.recv okMsg) = some h.loopTest := by
  simp only [Host.step, hp]
  rfl

/-- a data frame of the loop is built, sent and counted -/
theorem step_sendData (crc32 : List UInt8 → Nat → Nat) (hp : h.pc = .sendData)
    (hseq : h.seq < 2 ^ 16) :
    ∃ g, h.step crc32 (.send true) = some g ∧ g.seq = h.seq + 1 ∧ g.firmware = h.firmware ∧
      g.t0 = h.t0 ∧ (g.pc = .waitBatch ∨ g.pc = .sendData ∨ g.pc = .stopClock) := by
  obtain ⟨g, hg⟩ : ∃ g, h.step crc32 (.send true) = some g := by
    simp only [Host.step, hp]
    exact ⟨_, rfl⟩
  refine ⟨g, hg, ?_⟩
  rcases Host.step_send hg with
    ⟨_, _, _, hn⟩ | ⟨f, ⟨hp', _, _⟩ | ⟨_, _, rfl⟩ | ⟨hp', _, _⟩⟩
  · -- the sequence number fits
    have hn := hn rfl
    rw [hp] at hn
    unfold Host.nextFrame dataFrame at hn
    rw [packU16_some hseq] at hn
    cases hn
  · cases hp.symm.trans hp'
  · rcases Host.afterData_cases h.chunk { h with
      crc := crc32 h.chunk h.crc &&& 0xFFFFFFFF, frames := h.frames ++ [f] } with
      ⟨_, he⟩ | ⟨_, he⟩
    · rw [he]
      exact ⟨rfl, rfl, rfl, .inl rfl⟩
    · rw [he]
      exact ⟨rfl, rfl, rfl, .inr (loopTest_pc _)⟩
  · cases hp.symm.trans hp'

theorem nextStage_sendData {pc : HostPc}
    (hpc : pc = .waitBatch ∨ pc = .sendData ∨ pc = .stopClock) :
    nextStage .sendData pc = .progress := by
  rcases hpc with rfl | rfl | rfl
  · rfl
  · rfl
  · rfl

theorem nextStage_waitBatch {pc : HostPc} (hpc : pc = .sendData ∨ pc = .stopClock) :
    nextStage .waitBatch pc = .sleep := by
  rcases hpc with rfl | rfl
  · rfl
  · rfl

variable (sleepRaises) in
theorem step_progress (crc32 : List UInt8 → Nat → Nat) (hst : u.stage = .progress)
    (hne : u.host.firmware ≠ []) (now : Int) :
    u.step crc32 sleepRaises (.progress now) =
      some { u with stage := if u.host.pc = .waitBatch then .host else .sleep } := by
  obtain ⟨r, hr⟩ := progressLine_some hne now
  simp only [Upload.step, hst, hr]

/-- the frame, the progress line and the batch ACK of a round -/
theorem InLoop.round (crc32 : List UInt8 → Nat → Nat) {k : Nat} (hs : InLoop fw d t0 .host k u)
    (h01 : t0 ≤ t1)
    (hlt : 6 * k < fw.length) (hk : k < 2 ^ 16) :
    ∃ v, Reaches (Upload.step crc32 sleepRaises) (Benign t0 t1) u v ∧
      InLoop fw d t0 .sleep (k + 1) v := by
  have hp := hs.sendData hlt
  obtain ⟨rfl, hd, ht, rfl, hclock, _, hst⟩ := hs
  have hne : u.host.firmware ≠ [] := List.ne_nil_of_length_pos (Nat.zero_lt_of_lt hlt)
  -- the frame
  obtain ⟨h, hh, hseq, hfw, hclock', hpc⟩ := step_sendData crc32 hp hk
  have hsend := step_host sleepRaises hst hh
  rw [hp, nextStage_sendData hpc] at hsend
  -- the progress line
  have hprog := step_progress sleepRaises crc32 (u := { u with host := h, stage := .progress }) rfl
    (hfw ▸ hne) t0
  have htwo : ∀ v, Reaches (Upload.step crc32 sleepRaises) (Benign t0 t1)
      { u with host := h, stage := if h.pc = .waitBatch then .host else .sleep } v →
      Reaches (Upload.step crc32 sleepRaises) (Benign t0 t1) u v := by
    intro v hv
    exact Reaches.head (show Benign t0 t1 u (.host (.send true)) from rfl) hsend
      (Reaches.head (show Benign t0 t1 _ (.progress t0) from ⟨Int.le_refl _, h01⟩) hprog hv)
  by_cases hb : h.pc = .waitBatch
  · -- the batch ACK
    have hack := step_host sleepRaises (u := { u with host := h, stage := .host }) rfl
      (step_batchAck crc32 hb)
    have hsleep : nextStage h.pc h.loopTest.pc = .sleep := hb ▸ nextStage_waitBatch (loopTest_pc h)
    rw [hsleep] at hack
    refine ⟨{ u with host := h.loopTest, stage := .sleep }, htwo _ ?_, ?_⟩
    · rw [if_pos hb]
      exact Reaches.head (show Benign t0 t1 _ (.host (.recv okMsg)) from rfl) hack (Reaches.refl _)
    · exact ⟨hfw, hd, (ht.step hh).step (step_batchAck crc32 hb), hseq, hclock'.trans hclock,
        loopTest_pc h, rfl⟩
  · refine ⟨{ u with host := h, stage := .sleep }, htwo _ ?_, ?_⟩
    · rw [if_neg hb]
      exact Reaches.refl _
    · exact ⟨hfw, hd, ht.step hh, hseq, hclock'.trans hclock, hpc.resolve_left hb, rfl⟩

theorem InLoop.sleep (crc32 : List UInt8 → Nat → Nat) {k : Nat}
    (hs : InLoop fw d t0 .sleep k u) (h01 : t0 ≤ t1) (hd : ¬ (d.Pos ∧ sleepRaises d t0 = true)) :
    ∃ v, Reaches (Upload.step crc32 sleepRaises) (Benign t0 t1) u v ∧ InLoop fw d t0 .host k v := by
  obtain ⟨hfw, hdel, ht, hseq, hclock, hpc, hst⟩ := hs
  refine ⟨{ u with stage := .host }, ?_, hfw, hdel, ht, hseq, hclock, hpc, rfl⟩
  refine Reaches.head (show Benign t0 t1 u (.sleep t0) from ⟨Int.le_refl _, h01⟩) ?_
    (Reaches.refl _)
  simp only [Upload.step, hst]
  rw [hdel, if_neg hd]

/-- **with a device that answers every wait the loop comes to any round** -/
theorem loop_reached (crc32 : List UInt8 → Nat → Nat) (hs : InLoop fw d t0 .host 0 u)
    (h01 : t0 ≤ t1) (hd : ¬ (d.Pos ∧ sleepRaises d t0 = true)) :
    ∀ k, k ≤ 2 ^ 16 → 6 * k < fw.length + 6 →
      ∃ v, Reaches (Upload.step crc32 sleepRaises) (Benign t0 t1) u v ∧ InLoop fw d t0 .host k v
  | 0, _, _ => ⟨u, Reaches.refl u, hs⟩
  | k + 1, hk, hlt => by
    obtain ⟨v, huv, hv⟩ := loop_reached crc32 hs h01 hd k (by omega) (by omega)
    obtain ⟨w, hvw, hw⟩ := hv.round crc32 h01 (by omega) (by omega)
    obtain ⟨x, hwx, hx⟩ := hw.sleep crc32 h01 hd
    exact ⟨x, (huv.trans hvw).trans hwx, hx⟩

theorem loop_started (crc32 : List UInt8 → Nat → Nat) (t0 t1 : Int) (delayMs : PyFloat)
    (hlen : fw.length < 2 ^ 32) :
    ∃ u, Reaches (Upload.step crc32 sleepRaises) (Benign t0 t1) (init fw delayMs) u ∧
      InLoop fw delayMs.perThousand t0 .host 0 u := by
  obtain ⟨f, hf⟩ : ∃ f, requestFrame fw.length = some f := by
    unfold requestFrame
    rw [packU32_some hlen]
    exact ⟨_, rfl⟩
  have hsend : Host.step crc32 { firmware := fw } (.send true) =
      some { firmware := fw, pc := .waitRequest, frames := [f] } := by
    simp only [Host.step, hf]
    rfl
  have hrecv : Host.step crc32 { firmware := fw, pc := .waitRequest, frames := [f] } (.recv okMsg) =
      some { firmware := fw, pc := .startClock, frames := [f] } := rfl
  have hclock : Host.step crc32 { firmware := fw, pc := .startClock, frames := [f] } (.clock t0) =
      some { firmware := fw, pc := .startClock, t0 := t0, frames := [f] : Host}.loopTest := rfl
  have htally := ((Host.Tallied.init fw).step hsend).step hrecv
  refine ⟨_, Reaches.head (show Benign t0 t1 _ (.host (.send true)) from rfl)
      (step_host sleepRaises rfl hsend)
    (Reaches.head (show Benign t0 t1 _ (.host (.recv okMsg)) from rfl)
      (step_host sleepRaises rfl hrecv)
    (Reaches.head (show Benign t0 t1 _ (.host (.clock t0)) from ⟨fun _ => rfl, by rintro ⟨⟩⟩)
    (step_host sleepRaises rfl hclock) (Reaches.refl _))), rfl, rfl, htally.step hclock, rfl, rfl,
    loopTest_pc _, ?_⟩
  show nextStage .startClock (Host.loopTest _).pc = .host
  rcases loopTest_pc { firmware := fw, pc := .startClock, t0 := t0, frames := [f] } with hl | hl
  · rw [hl]
    rfl
  · rw [hl]
    rfl

theorem not_fine_raised {e : DfuError} (hst : u.stage = .host) (hp : u.host.pc = .raised e)
    (he : ¬ ByDevice e) : ¬ Fine crc32 sleepRaises t0 t1 u := by
  unfold Fine
  rw [hst, hp]
  exact he

theorem not_fine_sleepError (hst : u.stage = .sleepError) : ¬ Fine crc32 sleepRaises t0 t1 u := by
  unfold Fine
  rw [hst]
  exact id

theorem not_fine_step {e : HostEv} {err : DfuError} (hst : u.stage = .host)
    (hb : Benign t0 t1 u (.host e)) (hh : u.host.step crc32 e = some h) (hp : h.pc = .raised err)
    (he : ¬ ByDevice err) :
    ∃ v, Reaches (Upload.step crc32 sleepRaises) (Benign t0 t1) u v ∧
      ¬ Fine crc32 sleepRaises t0 t1 v := by
  refine ⟨_, Reaches.head hb (step_host sleepRaises hst hh) (Reaches.refl _), not_fine_raised ?_ hp he⟩
  show nextStage u.host.pc h.pc = .host
  rw [hp]
  rfl

/-- the size of the image does not fit into the REQUEST -/
theorem not_fine_request (crc32 : List UInt8 → Nat → Nat) (t0 t1 : Int) (delayMs : PyFloat)
    (hlen : ¬ fw.length < 2 ^ 32) :
    ∃ u, Reaches (Upload.step crc32 sleepRaises) (Benign t0 t1) (init fw delayMs) u ∧
      ¬ Fine crc32 sleepRaises t0 t1 u := by
  have hframe : requestFrame fw.length = none := by
    unfold requestFrame packU32
    rw [if_neg hlen]
    rfl
  have hstep : Host.step crc32 { firmware := fw } (.send true) =
      some (Host.raise { firmware := fw } .structError) := by
    simp only [Host.step, hframe]
    rfl
  have hb : Benign t0 t1 (init fw delayMs) (.host (.send true)) := rfl
  exact not_fine_step rfl hb hstep rfl id

/-- the sequence number does not fit into the data frame -/
theorem InLoop.not_fine_seq (crc32 : List UInt8 → Nat → Nat) (t1 : Int)
    (hs : InLoop fw d t0 .host (2 ^ 16) u) (hlt : 6 * 2 ^ 16 < fw.length) :
    ∃ v, Reaches (Upload.step crc32 sleepRaises) (Benign t0 t1) u v ∧
      ¬ Fine crc32 sleepRaises t0 t1 v := by
  have hstep : u.host.step crc32 (.send true) = some (Host.raise { u.host with
      crc := crc32 u.host.chunk u.host.crc &&& 0xFFFFFFFF } .structError) := by
    simp only [Host.step, hs.sendData hlt, hs.seq]
    rfl
  have hb : Benign t0 t1 u (.host (.send true)) := rfl
  exact not_fine_step hs.stage_eq hb hstep rfl id

/-- the delay is too long to be slept -/
theorem InLoop.not_fine_sleep (crc32 : List UInt8 → Nat → Nat) {k : Nat}
    (hs : InLoop fw d t0 .sleep k u) {now : Int} (h0 : t0 ≤ now) (h1 : now ≤ t1)
    (hd : d.Pos ∧ sleepRaises d now = true) :
    ∃ v, Reaches (Upload.step crc32 sleepRaises) (Benign t0 t1) u v ∧
      ¬ Fine crc32 sleepRaises t0 t1 v := by
  have hsleep : u.step crc32 sleepRaises (.sleep now) = some { u with stage := .sleepError } := by
    simp only [Upload.step, hs.stage_eq]
    rw [hs.frameDelay, if_pos hd]
  have hb : Benign t0 t1 u (.sleep now) := ⟨h0, h1⟩
  exact ⟨_, Reaches.head hb hsleep (Reaches.refl _), not_fine_sleepError rfl⟩

/-- the clock has not moved when everything is sent -/
theorem InLoop.not_fine_clock (crc32 : List UInt8 → Nat → Nat) {k : Nat}
    (hs : InLoop fw d t0 .host k u) (hge : fw.length ≤ 6 * k) (hclock : t1 = t0) :
    ∃ v, Reaches (Upload.step crc32 sleepRaises) (Benign t0 t1) u v ∧
      ¬ Fine crc32 sleepRaises t0 t1 v := by
  have hstop := hs.stopClock hge
  have hstep : u.host.step crc32 (.clock t1) = some (u.host.raise .zeroDivision) := by
    simp only [Host.step, hstop, hs.clock]
    rw [if_pos (Int.sub_eq_zero.mpr hclock)]
  have hb : Benign t0 t1 u (.host (.clock t1)) := by
    refine ⟨fun hstart => ?_, fun _ => rfl⟩
    cases hstop.symm.trans hstart
  exact not_fine_step hs.stage_eq hb hstep rfl id

/-- **an upload that is not harmless can fail without the device** -/
theorem not_fine (crc32 : List UInt8 → Nat → Nat) (hfw : fw ≠ []) (h01 : t0 ≤ t1)
    (delayMs : PyFloat) (hn : ¬ Harmless sleepRaises fw delayMs.perThousand t0 t1) :
    ∃ u, Reaches (Upload.step crc32 sleepRaises) (Benign t0 t1) (init fw delayMs) u ∧
      ¬ Fine crc32 sleepRaises t0 t1 u := by
  have hpos : 0 < fw.length := List.length_pos_iff.mpr hfw
  by_cases hlen : fw.length < 2 ^ 32
  · obtain ⟨u, hu, hloop⟩ := loop_started crc32 t0 t1 delayMs hlen
    by_cases hd : ∃ now, t0 ≤ now ∧ now ≤ t1 ∧
        (delayMs.perThousand.Pos ∧ sleepRaises delayMs.perThousand now = true)
    · -- the first round ends in `time.sleep`
      obtain ⟨now, h0, h1, hd⟩ := hd
      obtain ⟨v, huv, hv⟩ := hloop.round crc32 h01 (by omega) (by omega)
      obtain ⟨w, hvw, hw⟩ := hv.not_fine_sleep crc32 h0 h1 hd
      exact ⟨w, (hu.trans huv).trans hvw, hw⟩
    · have hdelay : ∀ now, t0 ≤ now → now ≤ t1 →
          ¬ (delayMs.perThousand.Pos ∧ sleepRaises delayMs.perThousand now = true) :=
        fun now h0 h1 h => hd ⟨now, h0, h1, h⟩
      have hd := hdelay t0 (Int.le_refl _) h01
      by_cases hsize : fw.length ≤ 6 * 2 ^ 16
      · have hclock : ¬ t0 < t1 := fun h => hn ⟨hsize, hdelay, h⟩
        obtain ⟨v, huv, hv⟩ := loop_reached crc32 hloop h01 hd ((fw.length + 5) / 6)
          (by omega) (by omega)
        obtain ⟨w, hvw, hw⟩ := hv.not_fine_clock crc32 (by omega)
          (Int.le_antisymm (Int.not_lt.mp hclock) h01)
        exact ⟨w, (hu.trans huv).trans hvw, hw⟩
      · obtain ⟨v, huv, hv⟩ := loop_reached crc32 hloop h01 hd (2 ^ 16)
          (Nat.le_refl _) (by omega)
        obtain ⟨w, hvw, hw⟩ := hv.not_fine_seq crc32 t1 (Nat.not_le.mp hsize)
        exact ⟨w, (hu.trans huv).trans hvw, hw⟩
  · exact not_fine_request crc32 t0 t1 delayMs hlen

end

end

/-- **An upload fails only because of the device, with every sequence of its replies, exactly if the
image has at most 65536 data frames, `time.sleep` raises at no reading of the clock up to the one
after the last data frame, and that one is another than before the first.** -/
theorem upload_fine_iff (crc32 : List UInt8 → Nat → Nat) (sleepRaises : PyFloat → Int → Bool)
    (fw : List UInt8) (delayMs : PyFloat) (t0 t1 : Int) (hfw : fw ≠ []) (h01 : t0 ≤ t1) :
    (∀ u, Reaches (Upload.step crc32 sleepRaises) (Benign t0 t1) (init fw delayMs) u →
        Fine crc32 sleepRaises t0 t1 u) ↔
      Harmless sleepRaises fw delayMs.perThousand t0 t1 := by
  constructor
  · intro hall
    by_contra hn
    obtain ⟨u, hu, hbad⟩ := not_fine crc32 hfw h01 delayMs hn
    exact hbad (hall u hu)
  · exact fun hok u hu => Sound.fine hfw hok hu

theorem upload_fine_oneByte :
    Harmless PyFloat.sleepRaises64 [0xA5] (PyFloat.fin 5).perThousand 0 7 ∧
      ∀ u, Reaches (Upload.step Crc.crc32 PyFloat.sleepRaises64) (Benign 0 7)
          (init [0xA5] (.fin 5)) u →
        Fine Crc.crc32 PyFloat.sleepRaises64 0 7 u := by
  have hdelay : ∀ now : Int, 0 ≤ now → now ≤ 7 →
      ¬ ((PyFloat.fin 5).perThousand.Pos ∧
        PyFloat.sleepRaises64 (PyFloat.fin 5).perThousand now = true) := by
    intro now _ h7 h
    have hceil : ((5 / 1000 : Rat) * 10 ^ 9).ceil = 5000000 := by decide +kernel
    have hraise := of_decide_eq_true h.2
    rw [hceil] at hraise
    omega
  have hok : Harmless PyFloat.sleepRaises64 [0xA5] (PyFloat.fin 5).perThousand 0 7 :=
    ⟨by decide, hdelay, by decide⟩
  exact ⟨hok, (upload_fine_iff Crc.crc32 PyFloat.sleepRaises64 [0xA5] (.fin 5) 0 7 (by decide)
    (by decide)).mpr hok⟩

/-- one byte that is sent and answered before the clock moves -/
def instantRun : List UploadEv :=
  [.host (.send true), .host (.recv okMsg), .host (.clock 3), .host (.send true), .progress 3,
    .sleep 3, .host (.clock 3)]

/-- an image of one byte fails when the clock does not move, and one of 393217 bytes at its last
frame; after the first frame a delay of infinity fails, and one that fits 64 bits when its deadline
does not -/
theorem upload_not_fine :
    (∃ u, Always (Upload.step Crc.crc32 PyFloat.sleepRaises64) (Benign 3 3) (init [0xA5] (.fin 5))
        instantRun ∧
      Runs.run (Upload.step Crc.crc32 PyFloat.sleepRaises64) (init [0xA5] (.fin 5)) instantRun =
        some u ∧
      u.host.pc = .raised .zeroDivision ∧ ¬ Fine Crc.crc32 PyFloat.sleepRaises64 3 3 u) ∧
    (∃ u, Reaches (Upload.step Crc.crc32 PyFloat.sleepRaises64) (Benign 0 7)
        (init (List.replicate 393217 0xA5) (.fin 5)) u ∧
      ¬ Fine Crc.crc32 PyFloat.sleepRaises64 0 7 u) ∧
    (∃ u, Reaches (Upload.step Crc.crc32 PyFloat.sleepRaises64) (Benign 0 7)
        (init [0xA5] .posInf) u ∧ ¬ Fine Crc.crc32 PyFloat.sleepRaises64 0 7 u) ∧
    ∃ u, Reaches (Upload.step Crc.crc32 PyFloat.sleepRaises64) (Benign (10 ^ 9) (2 * 10 ^ 9))
        (init [0xA5] (.fin (922337203685477 / 100))) u ∧
      ¬ Fine Crc.crc32 PyFloat.sleepRaises64 (10 ^ 9) (2 * 10 ^ 9) u := by
  refine ⟨?_, ?_, ?_, ?_⟩
  · have hbenign : Always (Upload.step Crc.crc32 PyFloat.sleepRaises64) (Benign 3 3)
        (init [0xA5] (.fin 5)) instantRun := by
      decide +kernel
    have hrun : ∃ u, Runs.run (Upload.step Crc.crc32 PyFloat.sleepRaises64) (init [0xA5] (.fin 5))
        instantRun = some u ∧ u.stage = .host ∧ u.host.pc = .raised .zeroDivision := by
      decide +kernel
    obtain ⟨u, hrun, hst, hp⟩ := hrun
    exact ⟨u, hbenign, hrun, hp, not_fine_raised hst hp id⟩
  · have hne : List.replicate 393217 (0xA5 : UInt8) ≠ [] := by
      rw [Ne, List.replicate_eq_nil_iff]
      decide
    refine not_fine Crc.crc32 hne (by decide) (.fin 5) fun hok => ?_
    have hsize := hok.size
    rw [List.length_replicate] at hsize
    exact absurd hsize (by decide)
  · exact not_fine Crc.crc32 (List.cons_ne_nil _ _) (by decide) .posInf
      fun hok => hok.delay 0 (by decide) (by decide) ⟨True.intro, rfl⟩
  · have hraise : (PyFloat.fin (922337203685477 / 100)).perThousand.Pos ∧
        PyFloat.sleepRaises64 (PyFloat.fin (922337203685477 / 100)).perThousand (10 ^ 9) = true := by
      decide +kernel
    exact not_fine Crc.crc32 (List.cons_ne_nil _ _) (by decide) (.fin (922337203685477 / 100))
      fun hok => hok.delay (10 ^ 9) (by decide) (by decide) hraise

end Upload

end CCU
