import Mathlib.Data.Nat.Bitwise
import CanConverter.Dfu.Image

/-!
# What reaches the DFU module

The frames of the updater share the bus with those of other nodes.  The filter picks two identifiers,
`ccu_dfu_rx_cb` logs each frame and hands it to `can_dfu_on_frame`.  What the frames then say is read
off the protocol in the docstring of tools/dfu_can.py: an upload is what comes between a REQUEST and
a COMMIT.  What the DFU module makes of it, and of numbers out of order, is not part of `Reading`.

* `dfuFilter_matches`   the two identifiers;
* `Sent`                what a run of the updater has sent, wherever it has stopped;
* `uploads_delivered`   the uploads read are those of the runs that sent a COMMIT;
* `disorder_detected`   the numbers and the size tell the right uploads, whatever the bus has done.
-/

namespace CCU
open Runs Crc

/-! ## the filter and the callback -/

structure CanFilter where
  id : Nat
  mask : Nat
  /-- `CAN_FRAME_IDE` -/
  extended : Bool

def CanFilter.matches (filter : CanFilter) (frame : CanMsg) : Bool :=
  frame.isExtendedId == filter.extended &&
    (frame.arbitrationId ^^^ filter.id) &&& filter.mask == 0

def dfuFilter : CanFilter := { id := dfuCmdId, mask := 0x1FFFFFFE, extended := true }

/-- a line of the log: five bytes of a CMD frame, the sequence number of a DATA frame -/
inductive RxLine where
  | cmd (id dlc : Nat) (data : List UInt8)
  | data (id dlc seq : Nat)
deriving DecidableEq

/-- the levels of the lines, and of the log module -/
inductive LogLevel where
  | inf
  | dbg
deriving DecidableEq

/-- `LOG_MODULE_REGISTER(ccu, LOG_LEVEL_INF)` -/
def ccuLogLevel : LogLevel := .inf

/-- `LOG_INF` for a CMD frame, `LOG_DBG` for a DATA frame -/
def RxLine.level : RxLine → LogLevel
  | .cmd _ _ _ => .inf
  | .data _ _ _ => .dbg

/-- a module built at the level `l` emits the line -/
def LogLevel.emits (l : LogLevel) (line : RxLine) : Bool := line.level = .inf ∨ l = .dbg

/-- what the callback has logged, and what it has handed to `can_dfu_on_frame` -/
structure DfuRx where
  logged : List RxLine := []
  handed : List CanMsg := []
deriving DecidableEq

def rxLine (frame : CanMsg) : RxLine :=
  let byte (i : Nat) : UInt8 := frame.data.getD i 0
  if frame.arbitrationId = dfuCmdId then
    .cmd frame.arbitrationId frame.dlc
      ((List.range 5).map fun i => if frame.dlc > i then byte i else 0)
  else
    .data frame.arbitrationId frame.dlc
      (if frame.dlc ≥ 2 then (byte 0).toNat ||| ((byte 1).toNat <<< 8) else 0)

/-- with the log module at the level `l` -/
def ccuDfuRxCb (l : LogLevel) (s : DfuRx) (frame : CanMsg) : DfuRx :=
  { logged := if l.emits (rxLine frame) then s.logged ++ [rxLine frame] else s.logged
    handed := s.handed ++ [frame] }

/-- the callback is called for the frames that the filter matches, in their order -/
def canRx (l : LogLevel) (bus : List CanMsg) : DfuRx :=
  (bus.filter dfuFilter.matches).foldl (ccuDfuRxCb l) {}

/-- a mask without the lowest bit -/
theorem and_mask_eq_zero {x : Nat} (h : x < 2 ^ 29) : x &&& 0x1FFFFFFE = 0 ↔ x < 2 := by
  constructor
  · intro h0
    have hdiv : (x &&& 0x1FFFFFFE) / 2 = 0 := by rw [h0]
    rw [Nat.and_div_two, show 0x1FFFFFFE / 2 = 2 ^ 28 - 1 by decide, Nat.and_two_pow_sub_one_eq_mod,
      Nat.mod_eq_of_lt (by omega)] at hdiv
    omega
  · intro h2
    obtain rfl | rfl : x = 0 ∨ x = 1 := by omega
    · rfl
    · rfl

/-- **the filter picks the extended frames with the two identifiers** -/
theorem dfuFilter_matches {frame : CanMsg} (h : frame.arbitrationId < 2 ^ 29) :
    dfuFilter.matches frame = true ↔ frame.isExtendedId = true ∧
      (frame.arbitrationId = dfuCmdId ∨ frame.arbitrationId = dfuDataId) := by
  have hlt : frame.arbitrationId ^^^ dfuCmdId < 2 ^ 29 := Nat.xor_lt_two_pow h (by decide)
  have hid : ∀ y, frame.arbitrationId ^^^ dfuCmdId = y ↔ frame.arbitrationId = y ^^^ dfuCmdId := by
    intro y
    constructor
    · rintro rfl
      rw [Nat.xor_assoc, Nat.xor_self, Nat.xor_zero]
    · intro hy
      rw [hy, Nat.xor_assoc, Nat.xor_self, Nat.xor_zero]
  have h2 : frame.arbitrationId ^^^ dfuCmdId < 2 ↔
      frame.arbitrationId ^^^ dfuCmdId = 0 ∨ frame.arbitrationId ^^^ dfuCmdId = 1 := by omega
  unfold CanFilter.matches
  rw [Bool.and_eq_true, beq_iff_eq, beq_iff_eq]
  show _ ∧ (frame.arbitrationId ^^^ dfuCmdId) &&& 0x1FFFFFFE = 0 ↔ _
  rw [and_mask_eq_zero hlt, h2, hid, hid]
  exact Iff.rfl

theorem canRx_handed (level : LogLevel) (bus : List CanMsg) :
    (canRx level bus).handed = bus.filter dfuFilter.matches := by
  have hfold : ∀ (l : List CanMsg) (s : DfuRx),
      (l.foldl (ccuDfuRxCb level) s).handed = s.handed ++ l := by
    intro l
    induction l with
    | nil => exact fun s => (List.append_nil _).symm
    | cons f l ih =>
      intro s
      rw [List.foldl_cons, ih]
      exact List.append_assoc _ _ _
  exact hfold _ {}

theorem canRx_logged (level : LogLevel) (bus : List CanMsg) :
    (canRx level bus).logged =
      ((bus.filter dfuFilter.matches).map rxLine).filter level.emits := by
  have hfold : ∀ (l : List CanMsg) (s : DfuRx),
      (l.foldl (ccuDfuRxCb level) s).logged = s.logged ++ (l.map rxLine).filter level.emits := by
    intro l
    induction l with
    | nil => exact fun s => (List.append_nil _).symm
    | cons f l ih =>
      intro s
      rw [List.foldl_cons, ih, List.map_cons, List.filter_cons]
      unfold ccuDfuRxCb
      split
      · exact List.append_assoc _ _ _
      · rfl
  exact hfold _ {}

/-- at the level DBG every line is emitted -/
theorem emits_dbg (lines : List RxLine) : lines.filter LogLevel.dbg.emits = lines :=
  List.filter_eq_self.mpr fun line _ => by simp [LogLevel.emits]

/-- at the level it is registered with the module logs the CMD frames -/
theorem emits_ccu (frames : List CanMsg) :
    (frames.map rxLine).filter ccuLogLevel.emits =
      (frames.filter fun frame => frame.arbitrationId = dfuCmdId).map rxLine := by
  rw [List.filter_map]
  congr 1
  refine List.filter_congr fun frame _ => ?_
  show ccuLogLevel.emits (rxLine frame) = _
  unfold rxLine
  by_cases hid : frame.arbitrationId = dfuCmdId
  · simp [hid, LogLevel.emits, RxLine.level]
  · simp [hid, LogLevel.emits, RxLine.level, ccuLogLevel]

/-! ## what the frames say -/

/-- the number of little-endian bytes -/
def leNat : List UInt8 → Nat
  | [] => 0
  | b :: l => b.toNat + 256 * leNat l

/-- an upload: the size of its REQUEST, the numbers and bytes of its DATA frames, the CRC of its
COMMIT -/
structure ReadUpload where
  size : Nat
  chunks : List (Nat × List UInt8)
  crc : Nat
deriving DecidableEq

/-- the bytes of the DATA frames -/
def ReadUpload.image (u : ReadUpload) : List UInt8 := (u.chunks.map Prod.snd).flatten

/-- the DATA frames are numbered 0, 1, 2, .. -/
def ReadUpload.InOrder (u : ReadUpload) : Prop :=
  u.chunks.map Prod.fst = List.range u.chunks.length

instance : DecidablePred ReadUpload.InOrder := fun u =>
  inferInstanceAs (Decidable (u.chunks.map Prod.fst = List.range u.chunks.length))

/-- after a REQUEST: the size, and the DATA frames since -/
structure Reading where
  session : Option (Nat × List (Nat × List UInt8)) := none
  uploads : List ReadUpload := []
deriving DecidableEq

namespace Reading

def onData (r : Reading) (data : List UInt8) : Reading :=
  { r with
    session := r.session.map fun (size, chunks) =>
      (size, chunks ++ [(leNat (data.take 2), data.drop 2)]) }

def onCmd (r : Reading) (cmd : UInt8) (arg : Nat) : Reading :=
  if cmd = cmdRequest then { r with session := some (arg, []) }
  else if cmd = cmdCommit then
    { session := none
      uploads := r.uploads ++
        r.session.toList.map fun (size, chunks) => { size := size, chunks := chunks, crc := arg } }
  else r

def take (r : Reading) (frame : CanMsg) : Reading :=
  if frame.arbitrationId = dfuDataId then r.onData frame.data
  else match frame.data with
    | cmd :: arg => r.onCmd cmd (leNat arg)
    | [] => r

end Reading

/-- what a sequence of frames says -/
def reading (frames : List CanMsg) : Reading := frames.foldl Reading.take {}

theorem leNat_leBytes (w n : Nat) : leNat (leBytes w n) = n % 256 ^ w := by
  induction w generalizing n with
  | zero => rw [Nat.pow_zero, Nat.mod_one]; rfl
  | succ w ih =>
    show (UInt8.ofNat (n % 256)).toNat + 256 * leNat (leBytes w (n / 256)) = _
    rw [ih, UInt8.toNat_ofNat', show 256 ^ (w + 1) = 256 * 256 ^ w from Nat.pow_succ', Nat.mod_mul]
    show n % 256 % 256 + _ = _
    rw [Nat.mod_mod]

theorem length_leBytes (w n : Nat) : (leBytes w n).length = w := by
  induction w generalizing n with
  | zero => rfl
  | succ w ih => exact congrArg (· + 1) (ih (n / 256))

/-! ## what a run has sent -/

section
variable {crc32 : List UInt8 → Nat → Nat} {fw : List UInt8} {h t : Host}

/-- nothing, the REQUEST and the DATA frames so far, or all of the image and the COMMIT -/
inductive Sent (crc32 : List UInt8 → Nat → Nat) (fw : List UInt8) (h : Host) : Prop where
  | nothing (hf : h.frames = [])
  | upload (n : Nat) (hsize : fw.length < 2 ^ 32) (hn : n ≤ 2 ^ 16)
      (hf : h.frames = requestMsg fw :: (List.range n).map (dataMsg fw))
  | whole (hc : Committed crc32 fw h)

theorem PcOk.sent (hs : PcOk crc32 fw h h.pc) (hr : ∀ e, h.pc ≠ .raised e) :
    Sent crc32 fw h := by
  have hup : ∀ {h : Host}, Uploaded crc32 fw h → Sent crc32 fw h :=
    fun hu => .upload _ hu.size_lt hu.seq_le hu.frames
  cases hp : h.pc with
  | sendRequest =>
    rw [hp] at hs
    exact .nothing hs.2.1
  | waitRequest | startClock | waitBatch =>
    rw [hp] at hs
    exact hup hs
  | sendData | stopClock | sendCommit =>
    rw [hp] at hs
    exact hup hs.1
  | waitCommit | returned =>
    rw [hp] at hs
    exact .whole hs
  | raised e => exact absurd hp (hr e)

theorem Sent.of_frames (hs : Sent crc32 fw h) (hf : t.frames = h.frames) : Sent crc32 fw t := by
  cases hs with
  | nothing h0 => exact .nothing (hf.trans h0)
  | upload n hsize hn h0 => exact .upload n hsize hn (hf.trans h0)
  | whole hc => exact .whole ⟨hc.size_lt, hc.count_le, hc.crc_lt, hf.trans hc.frames⟩

/-- a run that raises sends nothing more -/
theorem frames_of_raised {e : HostEv} {err : DfuError} (h0 : ∀ e, h.pc ≠ .raised e)
    (hstep : h.step crc32 e = some t) (ht : t.pc = .raised err) : t.frames = h.frames := by
  cases e with
  | send ok =>
    rcases Host.step_send hstep with ⟨_, _, hf, _⟩ | ⟨f, ⟨_, _, rfl⟩ | ⟨_, _, rfl⟩ | ⟨_, _, rfl⟩⟩
    · exact hf
    · cases ht
    · rcases Host.afterData_cases h.chunk { h with
        crc := crc32 h.chunk h.crc &&& 0xFFFFFFFF, frames := h.frames ++ [f] } with
        ⟨_, hd⟩ | ⟨_, hd⟩
      · rw [hd] at ht
        cases ht
      · rw [hd] at ht
        rcases Host.loopTest_cases _ with ⟨_, he⟩ | ⟨_, he⟩
        · rw [he] at ht
          cases ht
        · rw [he] at ht
          cases ht
    · cases ht
  | recv msg =>
    rcases Host.step_recv hstep with
      ⟨_, rfl⟩ | ⟨_, rfl⟩ | ⟨_, ⟨_, rfl⟩ | ⟨_, rfl⟩ | ⟨_, rfl⟩⟩
    · exact absurd ht (h0 err)
    · rfl
    · rfl
    · rfl
    · rfl
  | timeout =>
    obtain ⟨_, rfl⟩ := Host.step_timeout hstep
    rfl
  | clock now =>
    rcases Host.step_clock hstep with ⟨_, rfl⟩ | ⟨_, _, rfl⟩ | ⟨_, _, rfl⟩
    · rfl
    · rfl
    · rfl

/-- a run that has raised makes no step -/
theorem not_raised_of_step {e : HostEv} (hstep : h.step crc32 e = some t) (err : DfuError) :
    h.pc ≠ .raised err := by
  intro hp
  cases e with
  | send ok =>
    rcases Host.step_send_pc hstep with hs | hs | hs
    · cases hp.symm.trans hs
    · cases hp.symm.trans hs
    · cases hp.symm.trans hs
  | recv msg =>
    simp only [Host.step, hp] at hstep
    cases hstep
  | timeout =>
    simp only [Host.step, hp] at hstep
    cases hstep
  | clock now =>
    simp only [Host.step, hp] at hstep
    cases hstep

theorem Sent.run (hcrc : Running crc32) {evs : List HostEv}
    (hrun : run (Host.step crc32) { firmware := fw } evs = some h) : Sent crc32 fw h := by
  have hstep : ∀ (h : Host) (e : HostEv) (t : Host), PcOk crc32 fw h h.pc ∧ Sent crc32 fw h →
      h.step crc32 e = some t → PcOk crc32 fw t t.pc ∧ Sent crc32 fw t := by
    rintro h e t ⟨hpc, hsent⟩ hst
    have hpc' := hpc.step hcrc hst
    refine ⟨hpc', ?_⟩
    by_cases hr : ∃ err, t.pc = .raised err
    · obtain ⟨err, hr⟩ := hr
      exact hsent.of_frames (frames_of_raised (not_raised_of_step hst) hst hr)
    · exact hpc'.sent fun err he => hr ⟨err, he⟩
  refine (inv_run (I := fun h => PcOk crc32 fw h h.pc ∧ Sent crc32 fw h) hstep ⟨?_, .nothing rfl⟩
    hrun).2
  exact ⟨rfl, rfl, rfl, rfl, rfl⟩

/-! ## reading a run -/

theorem take_request (r : Reading) (hsize : fw.length < 2 ^ 32) :
    r.take (requestMsg fw) = { r with session := some (fw.length, []) } := by
  have hle : leNat (leBytes 4 fw.length) = fw.length := by
    rw [leNat_leBytes]
    exact Nat.mod_eq_of_lt hsize
  show Reading.onCmd r cmdRequest (leNat (leBytes 4 fw.length)) = _
  rw [hle]
  rfl

theorem take_commit (r : Reading) {crc : Nat} (hcrc : crc < 2 ^ 32) :
    r.take (commitMsg crc) =
      { session := none
        uploads := r.uploads ++ r.session.toList.map fun (size, chunks) =>
          { size := size, chunks := chunks, crc := crc } } := by
  have hle : leNat (leBytes 4 crc) = crc := by
    rw [leNat_leBytes]
    exact Nat.mod_eq_of_lt hcrc
  show Reading.onCmd r cmdCommit (leNat (leBytes 4 crc)) = _
  rw [hle]
  rfl

theorem take_data (r : Reading) {k : Nat} (hk : k < 2 ^ 16) :
    r.take (dataMsg fw k) =
      { r with
        session := r.session.map fun (size, chunks) =>
          (size, chunks ++ [(k, chunkAt fw k)]) } := by
  have htake : (leBytes 2 k ++ chunkAt fw k).take 2 = leBytes 2 k :=
    List.take_left' (length_leBytes 2 k)
  have hdrop : (leBytes 2 k ++ chunkAt fw k).drop 2 = chunkAt fw k :=
    List.drop_left' (length_leBytes 2 k)
  have hle : leNat (leBytes 2 k) = k := by
    rw [leNat_leBytes]
    exact Nat.mod_eq_of_lt hk
  show Reading.onData r (leBytes 2 k ++ chunkAt fw k) = _
  unfold Reading.onData
  rw [htake, hdrop, hle]

/-- the first `n` chunks of an image with their numbers -/
def numbered (fw : List UInt8) (n : Nat) : List (Nat × List UInt8) :=
  (List.range n).map fun k => (k, chunkAt fw k)

/-- the first `n` DATA frames in a session of their own -/
theorem read_data (r : Reading) {n : Nat} (hn : n ≤ 2 ^ 16) :
    ((List.range n).map (dataMsg fw)).foldl Reading.take
        { r with session := some (fw.length, []) } =
      { r with session := some (fw.length, numbered fw n) } := by
  unfold numbered
  induction n with
  | zero => rfl
  | succ n ih =>
    rw [List.range_succ, List.map_append, List.foldl_append, ih (by omega), List.map_append]
    show Reading.take _ (dataMsg fw n) = _
    rw [take_data _ (by omega)]
    rfl

/-! ## many runs -/

/-- a run of the updater, wherever it has stopped -/
structure HostRun (crc32 : List UInt8 → Nat → Nat) where
  firmware : List UInt8
  evs : List HostEv
  host : Host
  ran : run (Host.step crc32) { firmware := firmware } evs = some host

/-- a COMMIT -/
def isCommit (frame : CanMsg) : Bool :=
  frame.arbitrationId = dfuCmdId ∧ frame.data.head? = some cmdCommit

/-- the upload of a run that has sent its COMMIT -/
def HostRun.upload? (run : HostRun crc32) : Option ReadUpload :=
  if run.host.frames.any isCommit then
    some {
      size := run.firmware.length
      chunks := numbered run.firmware ((run.firmware.length + 5) / 6)
      crc := crc32 run.firmware 0 }
  else none

/-- the chunks of such an upload are in order, and put together they are the image -/
theorem upload_image {run : HostRun crc32} {u : ReadUpload} (hu : run.upload? = some u) :
    u.InOrder ∧ u.image = run.firmware := by
  obtain ⟨_, hu⟩ := Option.ite_none_right_eq_some.mp hu
  obtain rfl := Option.some.inj hu
  constructor
  · show (numbered _ _).map Prod.fst = List.range (numbered _ _).length
    unfold numbered
    rw [List.map_map, List.length_map, List.length_range]
    exact List.map_id _
  · show ((numbered _ _).map Prod.snd).flatten = _
    unfold numbered
    rw [List.map_map]
    show ((List.range _).map (chunkAt run.firmware)).flatten = _
    rw [flatten_chunks]
    exact List.take_of_length_le (by omega)

/-- **a run adds its upload, if it has sent the COMMIT, and nothing else** -/
theorem read_run (hcrc : Running crc32) (run : HostRun crc32) (r : Reading) :
    (run.host.frames.foldl Reading.take r).uploads = r.uploads ++ run.upload?.toList := by
  have hdata : ∀ n, ((List.range n).map (dataMsg run.firmware)).any isCommit = false := by
    intro n
    rw [List.any_eq_false]
    intro f hf
    obtain ⟨k, _, rfl⟩ := List.mem_map.mp hf
    simp [isCommit, dataMsg, CanMsg.ofData, dfuDataId, dfuCmdId]
  unfold HostRun.upload?
  cases Sent.run hcrc run.ran with
  | nothing h0 =>
    rw [h0]
    exact (List.append_nil _).symm
  | upload n hsize hn h0 =>
    have hany : (requestMsg run.firmware :: (List.range n).map (dataMsg run.firmware)).any
        isCommit = false := by
      rw [List.any_cons, hdata]
      rfl
    rw [h0, hany, List.foldl_cons, take_request r hsize, read_data r hn]
    exact (List.append_nil _).symm
  | whole hc =>
    have hany : (requestMsg run.firmware ::
        (List.range ((run.firmware.length + 5) / 6)).map (dataMsg run.firmware) ++
        [commitMsg (crc32 run.firmware 0)]).any isCommit = true := by
      rw [List.any_append]
      exact Bool.or_eq_true_iff.mpr (.inr rfl)
    rw [hc.frames, hany, List.foldl_append, List.foldl_cons, List.foldl_nil, List.foldl_cons,
      take_request r hc.size_lt, read_data r hc.count_le, take_commit _ hc.crc_lt]
    rfl

/-- the sequence number of a DATA line -/
def RxLine.seq? : RxLine → Option Nat
  | .cmd _ _ _ => none
  | .data _ _ seq => some seq

theorem rxLine_data {k : Nat} (hk : k < 2 ^ 16) :
    rxLine (dataMsg fw k) = .data dfuDataId (2 + (chunkAt fw k).length) k := by
  have hlen : (leBytes 2 k ++ chunkAt fw k).length = 2 + (chunkAt fw k).length := by
    rw [List.length_append, length_leBytes]
  have hseq : (k % 256) ||| (k / 256 % 256) <<< 8 = k := by
    rw [Nat.lor_comm, ← Nat.shiftLeft_add_eq_or_of_lt (Nat.mod_lt k (by decide)), Nat.shiftLeft_eq]
    omega
  have hbyte : ∀ n, (UInt8.ofNat (n % 256)).toNat = n % 256 := by
    intro n
    rw [UInt8.toNat_ofNat']
    exact Nat.mod_mod n 256
  show RxLine.data dfuDataId (leBytes 2 k ++ chunkAt fw k).length
    (if (leBytes 2 k ++ chunkAt fw k).length ≥ 2 then
      (UInt8.ofNat (k % 256)).toNat ||| (UInt8.ofNat (k / 256 % 256)).toNat <<< 8 else 0) = _
  rw [hlen, if_pos (Nat.le_add_right 2 _), hbyte, hbyte, hseq]

/-- the DATA frames that a run has sent -/
def HostRun.dataSent (run : HostRun crc32) : Nat :=
  run.host.frames.countP fun frame => frame.arbitrationId = dfuDataId

/-- **the log numbers the DATA frames of a run from 0** -/
theorem log_run (hcrc : Running crc32) (run : HostRun crc32) :
    (run.host.frames.map rxLine).filterMap RxLine.seq? = List.range run.dataSent := by
  have hlog : ∀ n, n ≤ 2 ^ 16 →
      (((List.range n).map (dataMsg run.firmware)).map rxLine).filterMap RxLine.seq? =
        List.range n := by
    intro n hn
    rw [List.map_map, List.filterMap_map]
    refine (List.filterMap_congr fun k hk => ?_).trans List.filterMap_some
    have hk := List.mem_range.mp hk
    exact congrArg RxLine.seq? (rxLine_data (Nat.lt_of_lt_of_le hk hn))
  have hcount : ∀ n, ((List.range n).map (dataMsg run.firmware)).countP
      (fun frame => frame.arbitrationId = dfuDataId) = n := by
    intro n
    rw [List.countP_map]
    exact (List.countP_eq_length.mpr fun _ _ => rfl).trans List.length_range
  unfold HostRun.dataSent
  cases Sent.run hcrc run.ran with
  | nothing h0 =>
    rw [h0]
    rfl
  | upload n _ hn h0 =>
    rw [h0, List.countP_cons, hcount]
    exact hlog n hn
  | whole hc =>
    rw [hc.frames, List.cons_append, List.countP_cons, List.countP_append, hcount, List.map_cons,
      List.map_append]
    show (((List.range _).map _).map rxLine ++ [rxLine (commitMsg _)]).filterMap RxLine.seq? = _
    rw [List.filterMap_append, hlog _ hc.count_le]
    exact List.append_nil _

/-- the frames of the updater match the filter -/
theorem matches_of_mem (hcrc : Running crc32) (run : HostRun crc32) {f : CanMsg}
    (hf : f ∈ run.host.frames) : dfuFilter.matches f = true := by
  have hcmd : ∀ data, dfuFilter.matches (.ofData dfuCmdId data) = true := fun _ =>
    (dfuFilter_matches (show dfuCmdId < 2 ^ 29 by decide)).mpr ⟨rfl, .inl rfl⟩
  have hcases : ∀ n, f ∈ requestMsg run.firmware :: (List.range n).map (dataMsg run.firmware) →
      dfuFilter.matches f = true := by
    intro n hf
    rcases List.mem_cons.mp hf with rfl | hf
    · exact hcmd _
    · obtain ⟨k, _, rfl⟩ := List.mem_map.mp hf
      exact (dfuFilter_matches (show dfuDataId < 2 ^ 29 by decide)).mpr ⟨rfl, .inr rfl⟩
  cases Sent.run hcrc run.ran with
  | nothing h0 =>
    rw [h0] at hf
    cases hf
  | upload n _ _ h0 =>
    rw [h0] at hf
    exact hcases n hf
  | whole hc =>
    rw [hc.frames] at hf
    rcases List.mem_append.mp hf with hf | hf
    · exact hcases _ hf
    · rw [List.mem_singleton.mp hf]
      exact hcmd _

/-- **Every upload reaches the DFU module, among any other traffic.**  The updater is run any number
of times, and each run may stop anywhere; on the bus, where `true` marks its frames, no other node
sends a frame that the filter matches.  What `can_dfu_on_frame` is handed says exactly the uploads of
the runs that sent their COMMIT, in their order, each with its image in chunks numbered from 0; the
log of the unit shows the REQUESTs and the COMMITs, and with the level DBG the numbers of the DATA
frames of every run as well, from 0. -/
theorem uploads_delivered (hcrc : Running crc32) (runs : List (HostRun crc32))
    (bus : List (Bool × CanMsg))
    (hown : (bus.filter Prod.fst).map Prod.snd = runs.flatMap fun run => run.host.frames)
    (hother : ∀ p ∈ bus, p.1 = false → dfuFilter.matches p.2 = false) :
    (∀ l, (reading (canRx l (bus.map Prod.snd)).handed).uploads =
        runs.filterMap HostRun.upload?) ∧
      (∀ run ∈ runs, ∀ u, run.upload? = some u → u.InOrder ∧ u.image = run.firmware) ∧
      (canRx ccuLogLevel (bus.map Prod.snd)).logged =
        runs.flatMap (fun run =>
          (run.host.frames.filter fun frame => frame.arbitrationId = dfuCmdId).map rxLine) ∧
      (canRx .dbg (bus.map Prod.snd)).logged.filterMap RxLine.seq? =
        runs.flatMap fun run => List.range run.dataSent := by
  have hpass : (bus.map Prod.snd).filter dfuFilter.matches =
      runs.flatMap fun run => run.host.frames := by
    rw [← hown, List.filter_map]
    congr 1
    refine List.filter_congr fun p hp => ?_
    cases hb : p.1 with
    | false => exact hother p hp hb
    | true =>
      have hmem : p.2 ∈ runs.flatMap fun run => run.host.frames := by
        rw [← hown]
        exact List.mem_map_of_mem (List.mem_filter.mpr ⟨hp, hb⟩)
      obtain ⟨run, _, hf⟩ := List.mem_flatMap.mp hmem
      exact matches_of_mem hcrc run hf
  have hread : ∀ (runs : List (HostRun crc32)) (r : Reading),
      ((runs.flatMap fun run => run.host.frames).foldl Reading.take r).uploads =
        r.uploads ++ runs.filterMap HostRun.upload? := by
    intro runs
    induction runs with
    | nil => exact fun r => (List.append_nil _).symm
    | cons run runs ih =>
      intro r
      rw [List.flatMap_cons, List.foldl_append, ih, read_run hcrc, List.filterMap_cons,
        List.append_assoc]
      cases run.upload? <;> rfl
  refine ⟨fun l => ?_, fun run _ u hu => upload_image hu, ?_, ?_⟩
  · rw [canRx_handed, hpass]
    exact hread runs {}
  · rw [canRx_logged, hpass, emits_ccu, List.filter_flatMap, List.map_flatMap]
  · rw [canRx_logged, hpass, emits_dbg, List.map_flatMap, List.filterMap_flatMap]
    exact List.flatMap_congr fun run _ => log_run hcrc run

/-! ## a bus that loses, repeats or reorders -/

/-- the DATA frames of a session are chunks of the image with their numbers -/
def Chunked (fw : List UInt8) (session : Option (Nat × List (Nat × List UInt8))) : Prop :=
  ∀ size chunks, session = some (size, chunks) →
    size = fw.length ∧ ∀ c ∈ chunks, c.2 = chunkAt fw c.1

/-- the upload is made of chunks of the image with their numbers, and has the CRC of the image -/
structure FromImage (crc32 : List UInt8 → Nat → Nat) (fw : List UInt8) (u : ReadUpload) : Prop where
  size : u.size = fw.length
  chunks : ∀ c ∈ u.chunks, c.2 = chunkAt fw c.1
  crc : u.crc = crc32 fw 0

/-- with the chunks in order and the announced size it is the image -/
theorem FromImage.image_eq {u : ReadUpload} (h : FromImage crc32 fw u) (ho : u.InOrder)
    (hlen : u.image.length = u.size) : u.image = fw := by
  have himage : u.image = fw.take (6 * u.chunks.length) := by
    have hsnd : u.chunks.map Prod.snd = (u.chunks.map Prod.fst).map (chunkAt fw) := by
      rw [List.map_map]
      exact List.map_congr_left h.chunks
    unfold ReadUpload.image
    rw [hsnd, ho, flatten_chunks]
  rw [h.size, himage, List.length_take] at hlen
  rw [himage]
  exact List.take_of_length_le (by omega)

/-- **any frame of a run leaves the session on the image of the run** -/
theorem Chunked.take {run : HostRun crc32} (hcrc : Running crc32) {f : CanMsg}
    (hf : f ∈ run.host.frames) {r : Reading} (hr : Chunked run.firmware r.session) :
    Chunked run.firmware (r.take f).session ∧
      ∀ u ∈ (r.take f).uploads, u ∈ r.uploads ∨ FromImage crc32 run.firmware u := by
  have hreq : run.firmware.length < 2 ^ 32 →
      Chunked run.firmware (r.take (requestMsg run.firmware)).session ∧
        ∀ u ∈ (r.take (requestMsg run.firmware)).uploads, u ∈ r.uploads ∨
          FromImage crc32 run.firmware u := by
    intro hsize
    rw [take_request r hsize]
    refine ⟨?_, fun u hu => .inl hu⟩
    rintro _ _ ⟨⟩
    exact ⟨rfl, fun c hc => absurd hc List.not_mem_nil⟩
  have hdata : ∀ k, k < 2 ^ 16 → Chunked run.firmware (r.take (dataMsg run.firmware k)).session ∧
        ∀ u ∈ (r.take (dataMsg run.firmware k)).uploads, u ∈ r.uploads ∨
          FromImage crc32 run.firmware u := by
    intro k hk
    rw [take_data r hk]
    refine ⟨?_, fun u hu => .inl hu⟩
    intro size chunks h
    obtain ⟨⟨size', chunks'⟩, hs, h⟩ := Option.map_eq_some_iff.mp h
    obtain ⟨rfl, rfl⟩ := Prod.mk.inj h
    obtain ⟨rfl, hchunks⟩ := hr _ _ hs
    refine ⟨rfl, fun c hc => ?_⟩
    rcases List.mem_append.mp hc with hc | hc
    · exact hchunks c hc
    · rw [List.mem_singleton.mp hc]
  have hrange : ∀ n, n ≤ 2 ^ 16 →
      f ∈ (List.range n).map (dataMsg run.firmware) → ∃ k < 2 ^ 16, dataMsg run.firmware k = f := by
    intro n hn hf
    obtain ⟨k, hk, hf⟩ := List.mem_map.mp hf
    exact ⟨k, Nat.lt_of_lt_of_le (List.mem_range.mp hk) hn, hf⟩
  cases Sent.run hcrc run.ran with
  | nothing h0 =>
    rw [h0] at hf
    cases hf
  | upload n hsize hn h0 =>
    rw [h0] at hf
    rcases List.mem_cons.mp hf with rfl | hf
    · exact hreq hsize
    · obtain ⟨k, hk, rfl⟩ := hrange n hn hf
      exact hdata k hk
  | whole hc =>
    rw [hc.frames, List.cons_append, List.mem_cons, List.mem_append, List.mem_singleton] at hf
    rcases hf with rfl | hf | rfl
    · exact hreq hc.size_lt
    · obtain ⟨k, hk, rfl⟩ := hrange _ hc.count_le hf
      exact hdata k hk
    · rw [take_commit r hc.crc_lt]
      refine ⟨fun _ _ h => (by cases h), fun u hu => ?_⟩
      rcases List.mem_append.mp hu with hu | hu
      · exact .inl hu
      · right
        obtain ⟨⟨size, chunks⟩, hs, rfl⟩ := List.mem_map.mp hu
        obtain ⟨rfl, hchunks⟩ := hr _ _ (Option.mem_toList.mp hs)
        exact ⟨rfl, hchunks, rfl⟩

/-- **The numbers and the size tell what was lost, repeated or disordered.**  Of each run the bus may
lose frames, repeat them and change their order, as long as the REQUEST comes first: every upload
that is then read with its numbers in order and with as many bytes as its REQUEST says is the
firmware of one of the runs, with its CRC. -/
theorem disorder_detected (hcrc : Running crc32) (runs : List (HostRun crc32 × List CanMsg))
    (hgot : ∀ p ∈ runs, ∀ f ∈ p.2, f ∈ p.1.host.frames)
    (hreq : ∀ p ∈ runs, p.2 = [] ∨ p.2.head? = some (requestMsg p.1.firmware)) :
    ∀ u ∈ (reading (runs.flatMap Prod.snd)).uploads, u.InOrder → u.image.length = u.size →
      ∃ p ∈ runs, u.size = p.1.firmware.length ∧ u.image = p.1.firmware ∧
        u.crc = crc32 p.1.firmware 0 := by
  -- in a run, once the session is on its image
  have hframes : ∀ (run : HostRun crc32) (got : List CanMsg),
      (∀ f ∈ got, f ∈ run.host.frames) → ∀ r : Reading, Chunked run.firmware r.session →
      ∀ u ∈ (got.foldl Reading.take r).uploads, u ∈ r.uploads ∨ FromImage crc32 run.firmware u := by
    intro run got
    induction got with
    | nil => exact fun _ _ _ u hu => .inl hu
    | cons f got ih =>
      intro hgot r hr u hu
      obtain ⟨hr', hup⟩ := Chunked.take hcrc (hgot f List.mem_cons_self) hr
      rcases ih (fun g hg => hgot g (List.mem_cons_of_mem f hg)) _ hr' u hu with hu | hu
      · exact hup u hu
      · exact .inr hu
  -- the REQUEST sets the session, whatever it was
  have hrun : ∀ (run : HostRun crc32) (got : List CanMsg), (∀ f ∈ got, f ∈ run.host.frames) →
      (got = [] ∨ got.head? = some (requestMsg run.firmware)) → ∀ r : Reading,
      ∀ u ∈ (got.foldl Reading.take r).uploads, u ∈ r.uploads ∨ FromImage crc32 run.firmware u := by
    intro run got hgot hhead r u hu
    cases got with
    | nil => exact .inl hu
    | cons f got =>
      obtain rfl : f = requestMsg run.firmware := by
        rcases hhead with h | h
        · cases h
        · exact Option.some.inj h
      have hclear := hframes run _ hgot { r with session := none } (fun _ _ h => by cases h) u
      exact hclear hu
  have hall : ∀ (l : List (HostRun crc32 × List CanMsg)), (∀ p ∈ l, p ∈ runs) → ∀ r : Reading,
      ∀ u ∈ ((l.flatMap Prod.snd).foldl Reading.take r).uploads,
        u ∈ r.uploads ∨ ∃ p ∈ runs, FromImage crc32 p.1.firmware u := by
    intro l
    induction l with
    | nil => exact fun _ _ u hu => .inl hu
    | cons p l ih =>
      intro hl r u hu
      have hp := hl p List.mem_cons_self
      rw [List.flatMap_cons, List.foldl_append] at hu
      rcases ih (fun q hq => hl q (List.mem_cons_of_mem p hq)) _ u hu with hu | hu
      · rcases hrun p.1 p.2 (hgot p hp) (hreq p hp) r u hu with hu | hu
        · exact .inl hu
        · exact .inr ⟨p, hp, hu⟩
      · exact .inr hu
  intro u hu horder hlen
  rcases hall runs (fun _ hp => hp) {} u hu with hu | ⟨p, hp, hfrom⟩
  · cases hu
  · exact ⟨p, hp, hfrom.size, hfrom.image_eq horder hlen, hfrom.crc⟩

end

/-- the updater gets no answer to its REQUEST -/
def silentRun : HostRun Crc.crc32 where
  firmware := [1, 2, 3, 4, 5, 6, 7]
  evs := [.send true, .timeout]
  host := _
  ran := rfl

def sevenRun : HostRun Crc.crc32 where
  firmware := [1, 2, 3, 4, 5, 6, 7]
  evs := sevenBytesRun
  host :=
    { firmware := [1, 2, 3, 4, 5, 6, 7], pc := .returned, crc := 0x70E46888, seq := 2, sent := 7
      t0 := 10
      frames :=
        [.ofData dfuCmdId [0x01, 7, 0, 0, 0], .ofData dfuDataId [0, 0, 1, 2, 3, 4, 5, 6],
          .ofData dfuDataId [1, 0, 7], .ofData dfuCmdId [0xFF, 0x88, 0x68, 0xE4, 0x70]] }
  ran := by decide +kernel

/-- both runs on a bus with a frame of another node -/
def sharedBus : List (Bool × CanMsg) :=
  silentRun.host.frames.map (Prod.mk true) ++ (false, .ofData 0x100 [3]) ::
    sevenRun.host.frames.map (Prod.mk true)

theorem uploads_delivered_sharedBus :
    (∀ l, (reading (canRx l (sharedBus.map Prod.snd)).handed).uploads =
        [silentRun, sevenRun].filterMap HostRun.upload?) ∧
      (∀ run ∈ [silentRun, sevenRun], ∀ u, run.upload? = some u →
        u.InOrder ∧ u.image = run.firmware) ∧
      (canRx ccuLogLevel (sharedBus.map Prod.snd)).logged =
        [silentRun, sevenRun].flatMap (fun run =>
          (run.host.frames.filter fun frame => frame.arbitrationId = dfuCmdId).map rxLine) ∧
      (canRx .dbg (sharedBus.map Prod.snd)).logged.filterMap RxLine.seq? =
        [silentRun, sevenRun].flatMap fun run => List.range run.dataSent :=
  uploads_delivered Crc.crc32_running [silentRun, sevenRun] sharedBus (by decide) (by decide)

/-- the bus repeats the first two frames, and the last one -/
def repeated : List CanMsg := sevenRun.host.frames.take 2 ++ sevenRun.host.frames ++
  [.ofData dfuCmdId [0xFF, 0x88, 0x68, 0xE4, 0x70]]

theorem disorder_detected_repeated :
    (reading ([(silentRun, []), (sevenRun, repeated)].flatMap Prod.snd)).uploads =
        [{ size := 7, chunks := [(0, [1, 2, 3, 4, 5, 6]), (1, [7])], crc := 0x70E46888 }] ∧
      ∀ u ∈ (reading ([(silentRun, []), (sevenRun, repeated)].flatMap Prod.snd)).uploads,
        u.InOrder → u.image.length = u.size →
        ∃ p ∈ [(silentRun, []), (sevenRun, repeated)], u.size = p.1.firmware.length ∧
          u.image = p.1.firmware ∧ u.crc = Crc.crc32 p.1.firmware 0 :=
  ⟨by decide, disorder_detected Crc.crc32_running [(silentRun, []), (sevenRun, repeated)]
    (by decide) (by decide)⟩

end CCU
