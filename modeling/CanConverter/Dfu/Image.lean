import CanConverter.Lib.Crc32
import CanConverter.Dfu.Host

/-!
# The image the host transmits

`chunkAt fw k` is what the `k`-th data frame should carry.  The loop of `run_dfu` keeps `sent`,
`seq`, `crc` and the frames sent in step with it.

* `flatten_chunks`     the chunks put together give the image;
* `Uploaded.round`     one data frame keeps the four in step;
* `PcOk.step`          what has been sent, at every place of the run;
* `image_transmitted`  what a run that returns has sent.
-/

namespace CCU
open Runs Crc

/-! ## the chunks of an image -/

/-- the `k`-th six bytes -/
def chunkAt (fw : List UInt8) (k : Nat) : List UInt8 := (fw.drop (6 * k)).take 6

theorem length_chunkAt (fw : List UInt8) (k : Nat) :
    (chunkAt fw k).length = min 6 (fw.length - 6 * k) := by
  unfold chunkAt
  rw [List.length_take, List.length_drop]

/-- the chunks so far are a prefix of the image -/
theorem flatten_chunks (fw : List UInt8) (n : Nat) :
    ((List.range n).map (chunkAt fw)).flatten = fw.take (6 * n) := by
  induction n with
  | zero => rfl
  | succ n ih =>
    rw [List.range_succ, List.map_append, List.flatten_append, ih, show 6 * (n + 1) = 6 * n + 6 by omega,
      List.take_add]
    show fw.take (6 * n) ++ (chunkAt fw n ++ []) = _
    rw [List.append_nil]
    rfl

/-- the data frame with the number `k` -/
def dataMsg (fw : List UInt8) (k : Nat) : CanMsg :=
  .ofData dfuDataId (leBytes 2 k ++ chunkAt fw k)

def requestMsg (fw : List UInt8) : CanMsg := .ofData dfuCmdId (cmdRequest :: leBytes 4 fw.length)

def commitMsg (crc : Nat) : CanMsg := .ofData dfuCmdId (cmdCommit :: leBytes 4 crc)

theorem requestFrame_some {n : Nat} {f : CanMsg} (h : requestFrame n = some f) :
    n < 2 ^ 32 ∧ f = .ofData dfuCmdId (cmdRequest :: leBytes 4 n) := by
  unfold requestFrame packU32 at h
  split at h
  · rename_i hn
    exact ⟨hn, (Option.some.inj h).symm⟩
  · cases h

theorem dataFrame_some {n : Nat} {p : List UInt8} {f : CanMsg} (h : dataFrame n p = some f) :
    n < 2 ^ 16 ∧ f = .ofData dfuDataId (leBytes 2 n ++ p) := by
  unfold dataFrame packU16 at h
  split at h
  · rename_i hn
    exact ⟨hn, (Option.some.inj h).symm⟩
  · cases h

theorem commitFrame_some {n : Nat} {f : CanMsg} (h : commitFrame n = some f) :
    n < 2 ^ 32 ∧ f = commitMsg n := by
  unfold commitFrame packU32 at h
  split at h
  · rename_i hn
    exact ⟨hn, (Option.some.inj h).symm⟩
  · cases h

/-! ## the invariant of the upload -/

section
variable {crc32 : List UInt8 → Nat → Nat} {fw : List UInt8} {h t : Host}

/-- the request and `h.seq` data frames have been sent -/
structure Uploaded (crc32 : List UInt8 → Nat → Nat) (fw : List UInt8) (h : Host) : Prop where
  firmware : h.firmware = fw
  size_lt : fw.length < 2 ^ 32
  seq_le : h.seq ≤ 2 ^ 16
  seq_tight : 6 * h.seq < fw.length + 6
  sent : h.sent = min (6 * h.seq) fw.length
  crc : h.crc = crc32 (fw.take h.sent) 0
  frames : h.frames = requestMsg fw :: (List.range h.seq).map (dataMsg fw)

/-- the place of the run and the clock do not matter -/
theorem Uploaded.of_eq (hs : Uploaded crc32 fw h) (h1 : t.firmware = h.firmware)
    (h2 : t.seq = h.seq) (h3 : t.sent = h.sent) (h4 : t.crc = h.crc) (h5 : t.frames = h.frames) :
    Uploaded crc32 fw t := by
  obtain ⟨a1, a2, a3, a4, a5, a6, a7⟩ := hs
  refine ⟨h1.trans a1, a2, ?_, ?_, ?_, ?_, ?_⟩
  · rw [h2]
    exact a3
  · rw [h2]
    exact a4
  · rw [h3, h2]
    exact a5
  · rw [h4, h3]
    exact a6
  · rw [h5, h2]
    exact a7

/-- **one data frame keeps `sent`, `seq`, `crc` and the frames in step** -/
theorem Uploaded.round (hcrc : Running crc32) (hs : Uploaded crc32 fw h)
    (hlt : h.sent < h.firmware.length) {f : CanMsg} (hf : dataFrame h.seq h.chunk = some f)
    (h1 : t.firmware = h.firmware) (h2 : t.seq = h.seq + 1)
    (h3 : t.sent = h.sent + h.chunk.length)
    (h4 : t.crc = crc32 h.chunk h.crc &&& 0xFFFFFFFF) (h5 : t.frames = h.frames ++ [f]) :
    Uploaded crc32 fw t := by
  obtain ⟨a1, a2, a3, a4, a5, a6, a7⟩ := hs
  obtain ⟨hseq, rfl⟩ := dataFrame_some hf
  rw [a1] at hlt
  have hsent : h.sent = 6 * h.seq := by omega
  have hchunk : h.chunk = chunkAt fw h.seq := by
    unfold Host.chunk chunkAt dataPayload
    rw [a1, hsent]
  have hlen : h.chunk.length = min 6 (fw.length - 6 * h.seq) := by
    rw [hchunk, length_chunkAt]
  -- the prefix of the image after this chunk
  have htake : fw.take (h.sent + h.chunk.length) = fw.take h.sent ++ h.chunk := by
    rw [List.take_add, hchunk, hsent, length_chunkAt]
    congr 1
    unfold chunkAt
    rw [List.take_eq_take_min, List.length_drop]
    conv_rhs => rw [List.take_eq_take_min, List.length_drop]
    congr 1
    omega
  refine ⟨h1.trans a1, a2, ?_, ?_, ?_, ?_, ?_⟩
  · omega
  · omega
  · omega
  · have hlt32 := hcrc.lt h.chunk h.crc
    have hmask : crc32 h.chunk h.crc &&& 0xFFFFFFFF = crc32 h.chunk h.crc := by
      rw [show (0xFFFFFFFF : Nat) = 2 ^ 32 - 1 by decide, Nat.and_two_pow_sub_one_eq_mod]
      exact Nat.mod_eq_of_lt hlt32
    rw [h4, hmask, h3, htake, hcrc.append, a6]
  · rw [h5, a7, h2, List.range_succ, List.map_append, hchunk]
    rfl

/-- when the loop is over all of the image has been sent -/
theorem Uploaded.complete (hs : Uploaded crc32 fw h) (hge : h.firmware.length ≤ h.sent) :
    h.sent = fw.length ∧ h.seq = (fw.length + 5) / 6 ∧ h.crc = crc32 fw 0 := by
  obtain ⟨a1, _, _, a4, a5, a6, _⟩ := hs
  rw [a1] at hge
  have hsent : h.sent = fw.length := by omega
  refine ⟨hsent, by omega, ?_⟩
  rw [a6, hsent, List.take_length]

/-! ## every place of the run -/

/-- the whole image and the commit have been sent -/
structure Committed (crc32 : List UInt8 → Nat → Nat) (fw : List UInt8) (h : Host) : Prop where
  size_lt : fw.length < 2 ^ 32
  count_le : (fw.length + 5) / 6 ≤ 2 ^ 16
  crc_lt : crc32 fw 0 < 2 ^ 32
  frames : h.frames = requestMsg fw :: (List.range ((fw.length + 5) / 6)).map (dataMsg fw) ++
    [commitMsg (crc32 fw 0)]

/-- what has been sent, at the place `pc` -/
def PcOk (crc32 : List UInt8 → Nat → Nat) (fw : List UInt8) (h : Host) : HostPc → Prop
  | .sendRequest =>
    h.firmware = fw ∧ h.frames = [] ∧ h.seq = 0 ∧ h.sent = 0 ∧ h.crc = 0
  | .waitRequest | .startClock | .waitBatch => Uploaded crc32 fw h
  | .sendData => Uploaded crc32 fw h ∧ h.sent < h.firmware.length
  | .stopClock | .sendCommit => Uploaded crc32 fw h ∧ h.firmware.length ≤ h.sent
  | .waitCommit | .returned => Committed crc32 fw h
  | .raised _ => True

theorem PcOk.loopTest (hs : Uploaded crc32 fw h) : PcOk crc32 fw h.loopTest h.loopTest.pc := by
  rcases h.loopTest_cases with ⟨hlt, he⟩ | ⟨hge, he⟩
  · rw [he]
    exact ⟨hs.of_eq rfl rfl rfl rfl rfl, hlt⟩
  · rw [he]
    exact ⟨hs.of_eq rfl rfl rfl rfl rfl, hge⟩

theorem PcOk.raised {e : DfuError} (ht : t.pc = .raised e) : PcOk crc32 fw t t.pc := by
  rw [ht]
  exact True.intro

theorem PcOk.send (hcrc : Running crc32) {ok : Bool} (hs : PcOk crc32 fw h h.pc)
    (hstep : h.step crc32 (.send ok) = some t) : PcOk crc32 fw t t.pc := by
  rcases Host.step_send hstep with
    ⟨e, he, _⟩ | ⟨f, ⟨hp, hf, rfl⟩ | ⟨hp, hf, rfl⟩ | ⟨hp, hf, rfl⟩⟩
  · exact PcOk.raised he
  · rw [hp] at hs
    obtain ⟨a1, a2, a3, a4, a5⟩ := hs
    obtain ⟨hlt, rfl⟩ := requestFrame_some hf
    rw [a1] at hlt
    show Uploaded crc32 fw _
    refine ⟨a1, hlt, ?_, ?_, ?_, ?_, ?_⟩
    · show h.seq ≤ 2 ^ 16
      omega
    · show 6 * h.seq < fw.length + 6
      omega
    · show h.sent = min (6 * h.seq) fw.length
      omega
    · show h.crc = crc32 (fw.take h.sent) 0
      rw [a5, a4, List.take_zero, hcrc.nil]
    · show h.frames ++ [_] = requestMsg fw :: (List.range h.seq).map (dataMsg fw)
      rw [a1, a2, a3]
      rfl
  · rw [hp] at hs
    obtain ⟨hu, hlt⟩ := hs
    rcases Host.afterData_cases h.chunk { h with
      crc := crc32 h.chunk h.crc &&& 0xFFFFFFFF, frames := h.frames ++ [f] } with
      ⟨_, hd⟩ | ⟨_, hd⟩
    · rw [hd]
      exact hu.round hcrc hlt hf rfl rfl rfl rfl rfl
    · rw [hd]
      exact PcOk.loopTest (hu.round hcrc hlt hf rfl rfl rfl rfl rfl)
  · rw [hp] at hs
    obtain ⟨hu, hge⟩ := hs
    obtain ⟨hlt, rfl⟩ := commitFrame_some hf
    obtain ⟨_, hseq, hcrc'⟩ := hu.complete hge
    rw [hcrc'] at hlt
    refine ⟨hu.size_lt, hseq ▸ hu.seq_le, hlt, ?_⟩
    show h.frames ++ [commitMsg h.crc] = _
    rw [hu.frames, hseq, hcrc']

theorem PcOk.recv {msg : CanMsg} (hs : PcOk crc32 fw h h.pc)
    (hstep : h.step crc32 (.recv msg) = some t) : PcOk crc32 fw t t.pc := by
  rcases Host.step_recv hstep with
    ⟨_, rfl⟩ | ⟨e, rfl⟩ | ⟨_, ⟨hp, rfl⟩ | ⟨hp, rfl⟩ | ⟨hp, rfl⟩⟩
  · exact hs
  · exact PcOk.raised rfl
  · rw [hp] at hs
    exact Uploaded.of_eq hs rfl rfl rfl rfl rfl
  · rw [hp] at hs
    exact PcOk.loopTest hs
  · rw [hp] at hs
    obtain ⟨a1, a2, a3, a4⟩ := hs
    exact ⟨a1, a2, a3, a4⟩

/-- **what has been sent, after one more step** -/
theorem PcOk.step (hcrc : Running crc32) {e : HostEv} (hs : PcOk crc32 fw h h.pc)
    (hstep : h.step crc32 e = some t) : PcOk crc32 fw t t.pc := by
  cases e with
  | send ok => exact PcOk.send hcrc hs hstep
  | recv msg => exact PcOk.recv hs hstep
  | timeout =>
    obtain ⟨_, rfl⟩ := Host.step_timeout hstep
    exact PcOk.raised rfl
  | clock now =>
    rcases Host.step_clock hstep with ⟨hp, rfl⟩ | ⟨_, _, rfl⟩ | ⟨hp, _, rfl⟩
    · rw [hp] at hs
      exact PcOk.loopTest (Uploaded.of_eq hs rfl rfl rfl rfl rfl)
    · exact PcOk.raised rfl
    · rw [hp] at hs
      exact ⟨hs.1.of_eq rfl rfl rfl rfl rfl, hs.2⟩

theorem PcOk.run (hcrc : Running crc32) {evs : List HostEv}
    (hrun : run (Host.step crc32) { firmware := fw } evs = some h) : PcOk crc32 fw h h.pc :=
  inv_run (I := fun h => PcOk crc32 fw h h.pc) (fun _ _ _ hs ht => PcOk.step hcrc hs ht)
    (show PcOk crc32 fw { firmware := fw } .sendRequest from ⟨rfl, rfl, rfl, rfl, rfl⟩) hrun

/-! ## the transmitted image -/

/-- the frames transmit the image `fw` exactly; `n` is the number of its chunks -/
structure Transmitted (crc32 : List UInt8 → Nat → Nat) (fw : List UInt8) (frames : List CanMsg)
    (n : Nat) : Prop where
  count : n = (fw.length + 5) / 6
  frames_eq : frames = requestMsg fw :: (List.range n).map (dataMsg fw) ++ [commitMsg (crc32 fw 0)]
  size_fits : fw.length < 2 ^ 32
  seq_fits : ∀ k < n, k < 2 ^ 16
  crc_fits : crc32 fw 0 < 2 ^ 32
  chunk_pos : ∀ k < n, 1 ≤ (chunkAt fw k).length
  chunk_le : ∀ k < n, (chunkAt fw k).length ≤ 6
  chunk_full : ∀ k, k + 1 < n → (chunkAt fw k).length = 6
  data_le : ∀ f ∈ frames, f.data.length ≤ 8
  image : ((List.range n).map (chunkAt fw)).flatten = fw

/-- **The uploader transmits the image exactly**, in every run that returns. -/
theorem image_transmitted (hcrc : Running crc32) (evs : List HostEv)
    (hrun : Runs.run (Host.step crc32) { firmware := fw } evs = some h)
    (hret : h.pc = .returned) : Transmitted crc32 fw h.frames ((fw.length + 5) / 6) := by
  have hpc := PcOk.run hcrc hrun
  rw [hret] at hpc
  obtain ⟨hsize, hcount, hlt, hframes⟩ : Committed crc32 fw h := hpc
  refine ⟨rfl, hframes, hsize, ?_, hlt, ?_, ?_, ?_, ?_, ?_⟩
  · intro k hk
    omega
  · intro k hk
    rw [length_chunkAt]
    omega
  · intro k _
    rw [length_chunkAt]
    exact Nat.min_le_left 6 _
  · intro k hk
    rw [length_chunkAt]
    omega
  · intro f hf
    rw [hframes, List.mem_append, List.mem_cons, List.mem_map, List.mem_singleton] at hf
    rcases hf with (rfl | ⟨k, _, rfl⟩) | rfl
    · exact Nat.le_of_ble_eq_true rfl
    · show (leBytes 2 k ++ chunkAt fw k).length ≤ 8
      rw [List.length_append, length_chunkAt]
      have h2 : (leBytes 2 k).length = 2 := rfl
      omega
    · exact Nat.le_of_ble_eq_true rfl
  · rw [flatten_chunks]
    exact List.take_of_length_le (by omega)

end

/-- an OK of the device -/
def okMsg : CanMsg := .ofData dfuRspId [statusOk]

/-- seven bytes in two data frames; the frame of another node is skipped -/
def sevenBytesRun : List HostEv :=
  [.send true, .recv (.ofData 0x100 [1]), .recv okMsg, .clock 10, .send true, .send true, .clock 25,
    .send true, .recv okMsg]

theorem image_transmitted_sevenBytes :
    ∃ h, Runs.run (Host.step Crc.crc32) { firmware := [1, 2, 3, 4, 5, 6, 7] } sevenBytesRun =
        some h ∧
      h.pc = .returned ∧ Transmitted Crc.crc32 [1, 2, 3, 4, 5, 6, 7] h.frames 2 := by
  have hrun : ∃ h, Runs.run (Host.step Crc.crc32) { firmware := [1, 2, 3, 4, 5, 6, 7] }
      sevenBytesRun = some h ∧ h.pc = .returned := by
    decide +kernel
  obtain ⟨h, hrun, hret⟩ := hrun
  exact ⟨h, hrun, hret, image_transmitted Crc.crc32_running sevenBytesRun hrun hret⟩

end CCU
