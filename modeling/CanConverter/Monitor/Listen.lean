import Mathlib.Data.List.AList
import Mathlib.Data.List.Sort
import Mathlib.Tactic.NormNum
import CanConverter.Lib.Poll
import CanConverter.Dfu.Failure
import CanConverter.Monitor.Decode

/-!
# The receive loops of the host tools

`_wait_response` of tools/dfu_can.py and the loop of `run_test` in tools/can_test.py test the clock,
call `bus.recv` and look at the message, if one came.  `Traffic` is all that such a loop can meet; it
never ends, and a finite stream of messages is one in which no more messages come.

* `waitRound`, `testRound`   a round of the loops;
* `WaitFine`, `TestFine`     they end with what the messages in time say;
* `wait_fine_iff`, `test_fine_iff`   when it holds;
* `receive_paths_iff`        both.
-/

namespace CCU
open Poll

/-- `x < d` -/
def PyFloat.Above (d : PyFloat) (x : Rat) : Prop :=
  match d with
  | .posInf => True
  | .fin q => x < q
  | _ => False

instance : ∀ (d : PyFloat) (x : Rat), Decidable (d.Above x)
  | .posInf, _ => isTrue True.intro
  | .fin q, x => inferInstanceAs (Decidable (x < q))
  | .nan, _ | .negInf, _ => isFalse id

/-- what a loop meets: the clock before it, in the test of each round and at its next reading, and
what the `bus.recv` of each round returns; `time.monotonic` never goes back -/
structure Traffic where
  start : Rat
  now : Nat → Rat
  later : Nat → Rat
  recv : Nat → Option WireFrame
  start_le : start ≤ now 0
  now_le : ∀ n, now n ≤ later n
  later_le : ∀ n, later n ≤ now (n + 1)

namespace Traffic

/-- the message of a round -/
def msg (s : Traffic) (n : Nat) : Option CanMsg := (s.recv n).map WireFrame.msg

/-- the test of `while time.monotonic() < deadline` -/
def BeforeDeadline (s : Traffic) (timeout : Rat) (n : Nat) : Prop := s.now n < s.start + timeout

/-- the test of `while time.monotonic() - t0 < duration` -/
def Within (s : Traffic) (duration : PyFloat) (n : Nat) : Prop := duration.Above (s.now n - s.start)

instance (s : Traffic) (timeout : Rat) : DecidablePred (s.BeforeDeadline timeout) :=
  fun n => inferInstanceAs (Decidable (s.now n < s.start + timeout))

instance (s : Traffic) (duration : PyFloat) : DecidablePred (s.Within duration) :=
  fun n => inferInstanceAs (Decidable (duration.Above (s.now n - s.start)))

/-- the messages of the first `n` rounds that are in time -/
def received (s : Traffic) (InTime : Nat → Prop) [DecidablePred InTime] (n : Nat) : List CanMsg :=
  (List.range n).filterMap fun k => if InTime k then s.msg k else none

end Traffic

/-- the first byte of an extended 0x7E2 frame that carries one -/
def CanMsg.response? (msg : CanMsg) : Option UInt8 :=
  if msg.arbitrationId = dfuRspId ∧ msg.isExtendedId = true then msg.data.head? else none

/-! ## `_wait_response` -/

inductive WaitEnd where
  | returned (b : UInt8)
  | timeoutError   -- "No response from device"
  | indexError
deriving DecidableEq

/-- a round of the loop -/
def waitRound (timeout : Rat) (s : Traffic) (n : Nat) (_ : Unit) : Outcome Unit WaitEnd :=
  if s.BeforeDeadline timeout n then
    match s.msg n with
    | none => .going ()
    | some msg =>
      match waitResponse msg with
      | .skip => .going ()
      | .status b => .stopped (.returned b)
      | .indexError => .stopped .indexError
  else .stopped .timeoutError

def waitAfter (timeout : Rat) (s : Traffic) : Nat → Outcome Unit WaitEnd :=
  after (waitRound timeout s) ()

/-- what `_wait_response` should have done after `n` rounds: returned the first byte of the first
response in time, or else raised `TimeoutError` after the deadline -/
def waitExpected (timeout : Rat) (s : Traffic) (n : Nat) : Outcome Unit WaitEnd :=
  match ((s.received (s.BeforeDeadline timeout) n).filterMap CanMsg.response?).head? with
  | some b => .stopped (.returned b)
  | none => if ∀ k < n, s.BeforeDeadline timeout k then .going () else .stopped .timeoutError

/-- `_wait_response` does after every round what the messages in time ask for -/
def WaitFine (timeout : Rat) (s : Traffic) : Prop :=
  ∀ n, waitAfter timeout s n = waitExpected timeout s n

/-! ## `run_test` -/

/-- the variables of the loop, and the decoded texts it has printed -/
structure Test where
  counts : AList fun _ : Nat => Nat := ∅
  lastData : AList fun _ : Nat => List UInt8 := ∅
  dfuAckReceived : Bool := false
  printed : List String := []

/-- the count of an identifier -/
def Test.count (t : Test) (fid : Nat) : Nat := (t.counts.lookup fid).getD 0

/-- the body of the loop for a message, `none` where it raises -/
def Test.onMsg (t : Test) (msg : CanMsg) : Option Test :=
  let fid := msg.arbitrationId
  (decodeFrame msg).map fun decoded =>
    { counts := t.counts.insert fid (t.count fid + 1)
      lastData := t.lastData.insert fid (msg.data.take msg.dlc)
      dfuAckReceived := if fid = dfuRspId ∧ t.dfuAckReceived = false then true else t.dfuAckReceived
      printed := t.printed ++ [decoded] }

/-- a line of the summary -/
structure SummaryRow where
  fid : Nat
  cnt : Nat
  rate : Rat
  raw : String
deriving DecidableEq

/-- the lines of the summary, and the line on the DFU REQUEST, if one was sent -/
structure Summary where
  rows : List SummaryRow
  dfuAck : Option Bool
deriving DecidableEq

/-- the summary, `none` where it raises -/
def Test.summary (t : Test) (sendDfuRequest : Bool) (elapsed : Rat) : Option Summary :=
  ((t.counts.keys.insertionSort (· ≤ ·)).mapM fun fid =>
    (pyDiv (t.count fid) elapsed).map fun rate =>
      { fid := fid, cnt := t.count fid, rate := rate
        raw := " ".intercalate (((t.lastData.lookup fid).getD []).map hex02) : SummaryRow }).map
    fun rows => ⟨rows, if sendDfuRequest then some t.dfuAckReceived else none⟩

inductive TestEnd where
  | finished (t : Test) (summary : Summary)
  | indexError
  | zeroDivision

/-- a round of the loop; the summary follows the last one -/
def testRound (duration : PyFloat) (sendDfuRequest : Bool) (s : Traffic) (n : Nat) (t : Test) :
    Outcome Test TestEnd :=
  if s.Within duration n then
    match s.msg n with
    | none => .going t
    | some msg =>
      match t.onMsg msg with
      | none => .stopped .indexError
      | some t => .going t
  else
    match t.summary sendDfuRequest (s.later n - s.start) with
    | none => .stopped .zeroDivision
    | some r => .stopped (.finished t r)

def testAfter (duration : PyFloat) (sendDfuRequest : Bool) (s : Traffic) :
    Nat → Outcome Test TestEnd :=
  after (testRound duration sendDfuRequest s) {}

/-- every message is printed, and counted once under its identifier -/
structure Test.Counted (t : Test) (msgs : List CanMsg) : Prop where
  printed : t.printed.length = msgs.length
  count : ∀ fid, t.count fid = msgs.countP fun msg => msg.arbitrationId = fid

/-- the lines of the summary are the counts -/
structure Summary.Counted (r : Summary) (msgs : List CanMsg) : Prop where
  row : ∀ row ∈ r.rows, row.cnt = msgs.countP fun msg => msg.arbitrationId = row.fid
  all : ∀ msg ∈ msgs, ∃ row ∈ r.rows, row.fid = msg.arbitrationId

/-- what `run_test` should have done after `n` rounds: counted the messages, and in the end written
the counts and the right line on the request -/
def TestExpected (duration : PyFloat) (sendDfuRequest : Bool) (s : Traffic) (n : Nat) :
    Outcome Test TestEnd → Prop
  | .going t => t.Counted (s.received (s.Within duration) n)
  | .stopped (.finished t r) =>
    t.Counted (s.received (s.Within duration) n) ∧ r.Counted (s.received (s.Within duration) n) ∧
      (sendDfuRequest = true →
        (r.dfuAck = some true ↔
          ∃ msg ∈ s.received (s.Within duration) n, msg.response?.isSome = true))
  | .stopped _ => False

/-- `run_test` has after every round counted the messages in time -/
def TestFine (duration : PyFloat) (sendDfuRequest : Bool) (s : Traffic) : Prop :=
  ∀ n, TestExpected duration sendDfuRequest s n (testAfter duration sendDfuRequest s n)

/-! ## the messages in time -/

section
variable {s : Traffic} {timeout : Rat} {duration : PyFloat} {m n : Nat}

theorem Traffic.now_mono (s : Traffic) : Monotone s.now :=
  monotone_nat_of_le_succ fun n => (s.now_le n).trans (s.later_le n)

theorem Traffic.beforeDeadline_of_le (h : s.BeforeDeadline timeout n) (hle : m ≤ n) :
    s.BeforeDeadline timeout m := lt_of_le_of_lt (s.now_mono hle) h

theorem Traffic.within_of_le (h : s.Within duration n) (hle : m ≤ n) : s.Within duration m := by
  have hsub : s.now m - s.start ≤ s.now n - s.start := sub_le_sub_right (s.now_mono hle) s.start
  cases duration with
  | posInf => exact True.intro
  | fin q => exact lt_of_le_of_lt hsub h
  | nan | negInf => exact absurd h id

section
variable {InTime : Nat → Prop} [DecidablePred InTime]

theorem Traffic.received_succ (s : Traffic) (n : Nat) :
    s.received InTime (n + 1) =
      s.received InTime n ++ (if InTime n then s.msg n else none).toList := by
  unfold received
  rw [List.range_succ, List.filterMap_append]
  rfl

theorem Traffic.mem_received {msg : CanMsg} :
    msg ∈ s.received InTime n ↔ ∃ k < n, InTime k ∧ s.msg k = some msg := by
  unfold received
  simp only [List.mem_filterMap, List.mem_range, Option.ite_none_right_eq_some]

end

/-! ## `_wait_response` -/

/-- an extended 0x7E2 frame that announces bytes and carries none -/
def CanMsg.HollowResponse (msg : CanMsg) : Prop :=
  msg.arbitrationId = dfuRspId ∧ msg.isExtendedId = true ∧ msg.Hollow

theorem WireFrame.dlc_pos (f : WireFrame) (h : f.msg.data ≠ []) : f.msg.dlc ≥ 1 := by
  cases f with
  | data id extended bytes _ => exact List.length_pos_iff.mpr h
  | remote id extended dlc _ => exact absurd rfl h

theorem waitResponse_cases (f : WireFrame) :
    (waitResponse f.msg = .skip ∧ f.msg.response? = none ∧ ¬ f.msg.HollowResponse) ∨
    (∃ b, waitResponse f.msg = .status b ∧ f.msg.response? = some b ∧ ¬ f.msg.HollowResponse) ∨
    (waitResponse f.msg = .indexError ∧ f.msg.response? = none ∧ f.msg.HollowResponse) := by
  unfold waitResponse CanMsg.response? CanMsg.HollowResponse CanMsg.Hollow
  by_cases hid : f.msg.arbitrationId = dfuRspId ∧ f.msg.isExtendedId = true
  · rw [if_pos hid]
    cases hdata : f.msg.data with
    | nil =>
      by_cases hdlc : f.msg.dlc ≥ 1
      · rw [if_pos ⟨hid.1, hid.2, hdlc⟩]
        exact .inr (.inr ⟨rfl, rfl, hid.1, hid.2, hdlc, rfl⟩)
      · rw [if_neg fun h => hdlc h.2.2]
        exact .inl ⟨rfl, rfl, fun h => hdlc h.2.2.1⟩
    | cons b l =>
      have hdlc := f.dlc_pos (hdata ▸ List.cons_ne_nil b l)
      rw [if_pos ⟨hid.1, hid.2, hdlc⟩]
      exact .inr (.inl ⟨b, rfl, rfl, fun h => nomatch h.2.2.2⟩)
  · rw [if_neg hid, if_neg fun h => hid ⟨h.1, h.2.1⟩]
    exact .inl ⟨rfl, rfl, fun h => hid ⟨h.1, h.2.1⟩⟩

/-- no response came in the first `n` rounds -/
def Traffic.Silent (s : Traffic) (n : Nat) : Prop :=
  ∀ k < n, ∀ msg, s.msg k = some msg → msg.response? = none

theorem Traffic.Silent.filterMap_received {InTime : Nat → Prop} [DecidablePred InTime]
    (h : s.Silent n) : (s.received InTime n).filterMap CanMsg.response? = [] := by
  rw [List.filterMap_eq_nil_iff]
  intro msg hmsg
  obtain ⟨k, hk, _, hmsg⟩ := Traffic.mem_received.mp hmsg
  exact h k hk msg hmsg

theorem waitExpected_going :
    waitExpected timeout s n = .going () ↔
      (∀ k < n, s.BeforeDeadline timeout k) ∧ s.Silent n := by
  unfold waitExpected
  constructor
  · intro h
    split at h
    · cases h
    · rename_i hh
      split at h
      · rename_i hall
        rw [List.head?_eq_none_iff, List.filterMap_eq_nil_iff] at hh
        exact ⟨hall, fun k hk msg hmsg =>
          hh msg (Traffic.mem_received.mpr ⟨k, hk, hall k hk, hmsg⟩)⟩
      · cases h
  · rintro ⟨hall, hsilent⟩
    rw [hsilent.filterMap_received]
    exact if_pos hall

theorem Traffic.silent_zero (s : Traffic) : s.Silent 0 := fun k hk => absurd hk (Nat.not_lt_zero k)

theorem waitExpected_zero : waitExpected timeout s 0 = .going () :=
  waitExpected_going.mpr ⟨fun k hk => absurd hk (Nat.not_lt_zero k), s.silent_zero⟩

theorem waitExpected_succ (h : waitExpected timeout s n = .going ())
    (hb : s.BeforeDeadline timeout n) :
    waitExpected timeout s (n + 1) =
      match (s.msg n).bind CanMsg.response? with
      | some b => .stopped (.returned b)
      | none => .going () := by
  obtain ⟨hall, hsilent⟩ := waitExpected_going.mp h
  have hall' : ∀ k < n + 1, s.BeforeDeadline timeout k := fun k hk =>
    Traffic.beforeDeadline_of_le hb (Nat.le_of_lt_succ hk)
  unfold waitExpected
  rw [Traffic.received_succ, List.filterMap_append, hsilent.filterMap_received, List.nil_append,
    if_pos hb, if_pos hall']
  cases s.msg n with
  | none => rfl
  | some msg =>
    cases hm : msg.response? with
    | none => simp [hm]
    | some b => simp [hm]

theorem waitExpected_late (h : waitExpected timeout s n = .going ())
    (hb : ¬ s.BeforeDeadline timeout n) :
    waitExpected timeout s (n + 1) = .stopped .timeoutError := by
  obtain ⟨-, hsilent⟩ := waitExpected_going.mp h
  unfold waitExpected
  rw [Traffic.received_succ, List.filterMap_append, hsilent.filterMap_received, if_neg hb,
    if_neg fun hall => hb (hall n (Nat.lt_succ_self n))]
  rfl

theorem waitExpected_stopped {t : WaitEnd} (h : waitExpected timeout s n = .stopped t) :
    waitExpected timeout s (n + 1) = .stopped t := by
  unfold waitExpected at h ⊢
  rw [Traffic.received_succ, List.filterMap_append, List.head?_append]
  split at h
  · rename_i b hh
    rw [hh]
    exact h
  · rename_i hh
    split at h
    · cases h
    · rename_i hnall
      have hlate : ¬ s.BeforeDeadline timeout n := fun hb =>
        hnall fun k hk => Traffic.beforeDeadline_of_le hb (Nat.le_of_lt hk)
      rw [hh, if_neg hlate]
      exact (if_neg fun hall => hlate (hall n (Nat.lt_succ_self n))).trans h

theorem waitRound_late (h : ¬ s.BeforeDeadline timeout n) :
    waitRound timeout s n () = .stopped .timeoutError := if_neg h

theorem waitRound_quiet (h : s.BeforeDeadline timeout n) (hmsg : s.msg n = none) :
    waitRound timeout s n () = .going () := by
  rw [waitRound, if_pos h, hmsg]

theorem waitRound_msg {msg : CanMsg} (h : s.BeforeDeadline timeout n) (hmsg : s.msg n = some msg) :
    waitRound timeout s n () =
      match waitResponse msg with
      | .skip => .going ()
      | .status b => .stopped (.returned b)
      | .indexError => .stopped .indexError := by
  rw [waitRound, if_pos h, hmsg]

/-- until the first response, no extended 0x7E2 frame in time announces bytes that it does not
carry -/
def WaitSafe (timeout : Rat) (s : Traffic) : Prop :=
  ∀ n, s.BeforeDeadline timeout n → s.Silent n →
    ∀ msg, s.msg n = some msg → ¬ msg.HollowResponse

/-- a round is as expected, unless it indexes an empty array -/
theorem wait_step (h : waitExpected timeout s n = .going ()) :
    waitRound timeout s n () = waitExpected timeout s (n + 1) ↔
      (s.BeforeDeadline timeout n → ∀ msg, s.msg n = some msg → ¬ msg.HollowResponse) := by
  by_cases hb : s.BeforeDeadline timeout n
  · rw [waitExpected_succ h hb]
    cases hrecv : s.msg n with
    | none =>
      refine iff_of_true (waitRound_quiet hb hrecv) ?_
      rintro - _ ⟨⟩
    | some msg =>
      obtain ⟨f, _, rfl⟩ := Option.map_eq_some_iff.mp hrecv
      rw [waitRound_msg hb hrecv, Option.bind_some]
      rcases waitResponse_cases f with ⟨hw, hr, hh⟩ | ⟨b, hw, hr, hh⟩ | ⟨hw, hr, hh⟩
      · rw [hw, hr]
        refine iff_of_true rfl ?_
        rintro - _ ⟨⟩
        exact hh
      · rw [hw, hr]
        refine iff_of_true rfl ?_
        rintro - _ ⟨⟩
        exact hh
      · -- it raises, and nothing was expected
        rw [hw, hr]
        refine iff_of_false (fun heq => ?_) fun hall => hall hb _ rfl hh
        cases heq
  · rw [waitRound_late hb, waitExpected_late h hb]
    exact iff_of_true rfl fun hin => absurd hin hb

theorem wait_fine_iff (timeout : Rat) (s : Traffic) : WaitFine timeout s ↔ WaitSafe timeout s := by
  have hloop := forall_iff (waitRound timeout s) ()
    (P := fun n o => o = waitExpected timeout s n)
    (C := fun n => s.BeforeDeadline timeout n → ∀ msg, s.msg n = some msg → ¬ msg.HollowResponse)
    waitExpected_zero.symm (fun _ _ _ h => wait_step h.symm)
    (fun _ _ _ h => (waitExpected_stopped h.symm).symm)
  refine hloop.trans ⟨fun h n hb hsilent => ?_, fun h n _ _ hgoing hb => ?_⟩
  · have hgoing : waitExpected timeout s n = .going () := waitExpected_going.mpr
      ⟨fun k hk => Traffic.beforeDeadline_of_le hb (Nat.le_of_lt hk), hsilent⟩
    exact h n () ((hloop.mpr h n).trans hgoing) hgoing.symm hb
  · exact h n hb (waitExpected_going.mp hgoing.symm).2

/-! ## `run_test` -/

/-- what holds of the variables after the messages -/
structure Test.Follows (t : Test) (msgs : List CanMsg) : Prop extends t.Counted msgs where
  mem : ∀ fid, fid ∈ t.counts ↔ ∃ msg ∈ msgs, msg.arbitrationId = fid
  ack : t.dfuAckReceived = true ↔ ∃ msg ∈ msgs, msg.arbitrationId = dfuRspId

theorem Test.follows_nil : ({} : Test).Follows [] where
  printed := rfl
  count _ := rfl
  mem fid := iff_of_false (AList.notMem_empty fid) fun ⟨_, h, _⟩ => absurd h List.not_mem_nil
  ack := iff_of_false Bool.false_ne_true fun ⟨_, h, _⟩ => absurd h List.not_mem_nil

theorem Test.Follows.onMsg {t t' : Test} {msgs : List CanMsg} {msg : CanMsg} (h : t.Follows msgs)
    (hm : t.onMsg msg = some t') : t'.Follows (msgs ++ [msg]) := by
  obtain ⟨decoded, _, rfl⟩ := Option.map_eq_some_iff.mp hm
  refine ⟨⟨?_, fun fid => ?_⟩, fun fid => ?_, ?_⟩
  · rw [List.length_append, List.length_append, h.printed]
    rfl
  · rw [List.countP_append, ← h.count fid]
    by_cases hid : msg.arbitrationId = fid
    · subst hid
      simp [Test.count]
    · have hne : fid ≠ msg.arbitrationId := fun heq => hid heq.symm
      simp [Test.count, AList.lookup_insert_ne hne, hid]
  · rw [AList.mem_insert, h.mem fid]
    simp only [List.mem_append, List.mem_singleton, or_and_right, exists_or, exists_eq_left]
    rw [or_comm, eq_comm]
  · simp only [List.mem_append, List.mem_singleton, or_and_right, exists_or, exists_eq_left]
    rw [← h.ack]
    by_cases hid : msg.arbitrationId = dfuRspId
    · cases hack : t.dfuAckReceived <;> simp [hid]
    · simp [hid]

/-- a line of the summary -/
def Test.row (t : Test) (elapsed : Rat) (fid : Nat) : SummaryRow :=
  ⟨fid, t.count fid, t.count fid / elapsed,
    " ".intercalate (((t.lastData.lookup fid).getD []).map hex02)⟩

/-- the summary does not raise, unless it divides by zero -/
theorem Test.summary_eq {t : Test} {elapsed : Rat} (h : elapsed ≠ 0 ∨ t.counts.keys = [])
    (sendDfuRequest : Bool) :
    t.summary sendDfuRequest elapsed =
      some ⟨(t.counts.keys.insertionSort (· ≤ ·)).map (t.row elapsed),
        if sendDfuRequest then some t.dfuAckReceived else none⟩ := by
  unfold Test.summary
  rcases h with h | h
  · have hdiv : ∀ cnt : Rat, pyDiv cnt elapsed = some (cnt / elapsed) := fun _ => if_neg h
    simp only [hdiv, Option.map_some]
    show Option.map _ (List.mapM (fun fid => pure (t.row elapsed fid)) _) = _
    rw [List.mapM_pure]
    rfl
  · rw [h]
    rfl

theorem Test.Follows.summary_counted {t : Test} {msgs : List CanMsg} {elapsed : Rat}
    (h : t.Follows msgs) (hel : msgs ≠ [] → elapsed ≠ 0) (sendDfuRequest : Bool) :
    ∃ r, t.summary sendDfuRequest elapsed = some r ∧ r.Counted msgs ∧
      (sendDfuRequest = true → r.dfuAck = some t.dfuAckReceived) := by
  have hkeys : elapsed ≠ 0 ∨ t.counts.keys = [] := by
    by_cases hnil : msgs = []
    · refine .inr ?_
      rw [List.eq_nil_iff_forall_not_mem]
      intro fid hfid
      obtain ⟨msg, hmsg, _⟩ := (h.mem fid).mp (AList.mem_keys.mpr hfid)
      rw [hnil] at hmsg
      exact absurd hmsg List.not_mem_nil
    · exact .inl (hel hnil)
  refine ⟨_, Test.summary_eq hkeys sendDfuRequest, ⟨fun row hrow => ?_, fun msg hmsg => ?_⟩,
    fun hsend => congrArg (if · then some t.dfuAckReceived else none) hsend⟩
  · obtain ⟨fid, _, rfl⟩ := List.mem_map.mp hrow
    exact h.count fid
  · refine ⟨t.row elapsed msg.arbitrationId, List.mem_map_of_mem ?_, rfl⟩
    rw [List.mem_insertionSort, ← AList.mem_keys]
    exact (h.mem _).mpr ⟨msg, hmsg, rfl⟩

/-- time has passed since a message was received -/
theorem Traffic.elapsed_ne_zero (hmsgs : s.received (s.Within duration) n ≠ [])
    (hlate : ¬ s.Within duration n) : s.later n - s.start ≠ 0 := by
  obtain ⟨msg, hmsg⟩ := List.exists_mem_of_ne_nil _ hmsgs
  obtain ⟨k, _, hin, _⟩ := Traffic.mem_received.mp hmsg
  have hfirst : s.start ≤ s.now k := s.start_le.trans (s.now_mono (Nat.zero_le k))
  cases duration with
  | posInf => exact absurd True.intro hlate
  | nan | negInf => exact absurd hin id
  | fin q =>
    have hpos : 0 < s.later n - s.start :=
      calc (0 : Rat) ≤ s.now k - s.start := sub_nonneg.mpr hfirst
        _ < q := hin
        _ ≤ s.now n - s.start := not_lt.mp hlate
        _ ≤ s.later n - s.start := sub_le_sub_right (s.now_le n) s.start
    exact ne_of_gt hpos

theorem testRound_quiet {t : Test} (h : s.Within duration n) (hmsg : s.msg n = none)
    (sendDfuRequest : Bool) : testRound duration sendDfuRequest s n t = .going t := by
  rw [testRound, if_pos h, hmsg]

theorem testRound_msg {t : Test} {msg : CanMsg} (h : s.Within duration n)
    (hmsg : s.msg n = some msg) (sendDfuRequest : Bool) :
    testRound duration sendDfuRequest s n t =
      match t.onMsg msg with
      | none => .stopped .indexError
      | some t => .going t := by
  rw [testRound, if_pos h, hmsg]

theorem testRound_late {t : Test} (h : ¬ s.Within duration n) (sendDfuRequest : Bool) :
    testRound duration sendDfuRequest s n t =
      match t.summary sendDfuRequest (s.later n - s.start) with
      | none => .stopped .zeroDivision
      | some r => .stopped (.finished t r) := if_neg h

theorem Test.onMsg_eq_none {t : Test} {msg : CanMsg} :
    t.onMsg msg = none ↔ msg.arbitrationId ∈ decodedIds ∧ msg.Hollow :=
  Option.map_eq_none_iff.trans (decodeFrame_eq_none msg)

theorem testRound_going {t t' : Test} {sendDfuRequest : Bool}
    (hround : testRound duration sendDfuRequest s n t = .going t') :
    s.Within duration n ∧
      (t.Follows (s.received (s.Within duration) n) →
        t'.Follows (s.received (s.Within duration) (n + 1))) := by
  by_cases hin : s.Within duration n
  · refine ⟨hin, fun h => ?_⟩
    rw [Traffic.received_succ, if_pos hin]
    cases hmsg : s.msg n with
    | none =>
      obtain rfl := Outcome.going.inj ((testRound_quiet hin hmsg sendDfuRequest).symm.trans hround)
      rw [Option.toList_none, List.append_nil]
      exact h
    | some msg =>
      rw [testRound_msg hin hmsg] at hround
      cases hon : t.onMsg msg with
      | none =>
        rw [hon] at hround
        cases hround
      | some t'' =>
        rw [hon] at hround
        cases hround
        exact h.onMsg hon
  · rw [testRound_late hin] at hround
    cases hsum : t.summary sendDfuRequest (s.later n - s.start) with
    | none =>
      rw [hsum] at hround
      cases hround
    | some r =>
      rw [hsum] at hround
      cases hround

/-- a loop that goes on is in time, and has followed the messages -/
theorem testAfter_going {t : Test} {sendDfuRequest : Bool}
    (h : testAfter duration sendDfuRequest s n = .going t) :
    (∀ k < n, s.Within duration k) ∧ t.Follows (s.received (s.Within duration) n) := by
  refine inv_going (I := fun n t => (∀ k < n, s.Within duration k) ∧
    t.Follows (s.received (s.Within duration) n))
    ⟨fun k hk => absurd hk (Nat.not_lt_zero k), Test.follows_nil⟩ ?_ h
  rintro n t t' ⟨-, hfollows⟩ hround
  obtain ⟨hin, hnext⟩ := testRound_going hround
  exact ⟨fun k hk => Traffic.within_of_le hin (Nat.le_of_lt_succ hk), hnext hfollows⟩

/-- a message that is decoded does not announce bytes that it does not carry, and if listening ends
here, a 0x7E2 frame came only together with a response -/
structure RoundSafe (duration : PyFloat) (sendDfuRequest : Bool) (s : Traffic) (n : Nat) : Prop where
  bytes : s.Within duration n → ∀ msg, s.msg n = some msg →
    ¬ (msg.arbitrationId ∈ decodedIds ∧ msg.Hollow)
  ack : sendDfuRequest = true → ¬ s.Within duration n →
    (∃ msg ∈ s.received (s.Within duration) n, msg.arbitrationId = dfuRspId) →
    ∃ msg ∈ s.received (s.Within duration) n, msg.response?.isSome = true

/-- every round until the end of listening is safe -/
def TestSafe (duration : PyFloat) (sendDfuRequest : Bool) (s : Traffic) : Prop :=
  ∀ n, (∀ k < n, s.Within duration k) → RoundSafe duration sendDfuRequest s n

theorem CanMsg.id_of_response {msg : CanMsg} (h : msg.response?.isSome = true) :
    msg.arbitrationId = dfuRspId := by
  unfold CanMsg.response? at h
  split at h
  · rename_i hid
    exact hid.1
  · cases h

/-- a round keeps what is expected exactly if it is safe -/
theorem test_step {t : Test} {sendDfuRequest : Bool}
    (h : testAfter duration sendDfuRequest s n = .going t) :
    TestExpected duration sendDfuRequest s (n + 1) (testRound duration sendDfuRequest s n t) ↔
      RoundSafe duration sendDfuRequest s n := by
  obtain ⟨-, hfollows⟩ := testAfter_going h
  by_cases hin : s.Within duration n
  · have hround : ∀ t', testRound duration sendDfuRequest s n t = .going t' →
        TestExpected duration sendDfuRequest s (n + 1)
          (testRound duration sendDfuRequest s n t) := by
      intro t' ht'
      rw [ht']
      exact ((testRound_going ht').2 hfollows).toCounted
    cases hmsg : s.msg n with
    | none =>
      refine iff_of_true (hround t (testRound_quiet hin hmsg _)) ⟨fun _ msg hm => ?_,
        fun _ hlate => absurd hin hlate⟩
      cases hmsg.symm.trans hm
    | some msg =>
      have hmsg_round := testRound_msg (t := t) hin hmsg sendDfuRequest
      cases hon : t.onMsg msg with
      | none =>
        rw [hon] at hmsg_round
        rw [hmsg_round]
        exact iff_of_false id fun hsafe => hsafe.bytes hin msg hmsg (Test.onMsg_eq_none.mp hon)
      | some t' =>
        rw [hon] at hmsg_round
        refine iff_of_true (hround t' hmsg_round) ⟨fun _ m hm hbad => ?_,
          fun _ hlate => absurd hin hlate⟩
        obtain rfl := Option.some.inj (hmsg.symm.trans hm)
        cases hon.symm.trans (Test.onMsg_eq_none.mpr hbad)
  · obtain ⟨r, hr, hcounted, hack⟩ := hfollows.summary_counted
      (fun hmsgs => Traffic.elapsed_ne_zero hmsgs hin) sendDfuRequest
    have hsame : s.received (s.Within duration) (n + 1) = s.received (s.Within duration) n := by
      rw [Traffic.received_succ, if_neg hin]
      exact List.append_nil _
    rw [testRound_late hin, hr]
    unfold TestExpected
    rw [hsame]
    constructor
    · rintro ⟨-, -, hclaim⟩
      refine ⟨fun hin' => absurd hin' hin, fun hsend _ hrsp => ?_⟩
      rw [← hclaim hsend, hack hsend, hfollows.ack.mpr hrsp]
    · intro hsafe
      refine ⟨hfollows.toCounted, hcounted, fun hsend => ?_⟩
      rw [hack hsend, Option.some_inj, hfollows.ack]
      constructor
      · exact hsafe.ack hsend hin
      · rintro ⟨msg, hmem, hsome⟩
        exact ⟨msg, hmem, CanMsg.id_of_response hsome⟩

/-- in time the loop only stops for a message that it cannot decode -/
theorem testRound_stopped {t : Test} {sendDfuRequest : Bool} {e : TestEnd}
    (hin : s.Within duration n) (hround : testRound duration sendDfuRequest s n t = .stopped e) :
    e = .indexError := by
  cases hmsg : s.msg n with
  | none => cases (testRound_quiet hin hmsg sendDfuRequest).symm.trans hround
  | some msg =>
    rw [testRound_msg hin hmsg] at hround
    cases hon : t.onMsg msg with
    | none =>
      rw [hon] at hround
      exact (Outcome.stopped.inj hround).symm
    | some t' =>
      rw [hon] at hround
      cases hround

theorem test_stay {sendDfuRequest : Bool} {e : TestEnd}
    (h : testAfter duration sendDfuRequest s n = .stopped e)
    (hexp : TestExpected duration sendDfuRequest s n (.stopped e)) :
    TestExpected duration sendDfuRequest s (n + 1) (.stopped e) := by
  obtain ⟨k, hk, t, _, hround⟩ := stopped_round h
  cases e with
  | indexError => exact hexp.elim
  | zeroDivision => exact hexp.elim
  | finished t r =>
    have hlate : ¬ s.Within duration n := fun hin => by
      cases testRound_stopped (Traffic.within_of_le hin (Nat.le_of_lt hk)) hround
    unfold TestExpected at hexp ⊢
    rw [Traffic.received_succ, if_neg hlate, Option.toList_none, List.append_nil]
    exact hexp

theorem TestFine.going {sendDfuRequest : Bool} (hfine : TestFine duration sendDfuRequest s)
    (hall : ∀ k < n, s.Within duration k) :
    ∃ t, testAfter duration sendDfuRequest s n = .going t := by
  cases hn : testAfter duration sendDfuRequest s n with
  | going t => exact ⟨t, rfl⟩
  | stopped e =>
    obtain ⟨k, hk, t, _, hround⟩ := stopped_round hn
    obtain rfl := testRound_stopped (hall k hk) hround
    have hexp := hfine n
    rw [hn] at hexp
    exact hexp.elim

theorem test_fine_iff (duration : PyFloat) (sendDfuRequest : Bool) (s : Traffic) :
    TestFine duration sendDfuRequest s ↔ TestSafe duration sendDfuRequest s := by
  have hloop := forall_iff (testRound duration sendDfuRequest s) {}
    (P := TestExpected duration sendDfuRequest s) (C := RoundSafe duration sendDfuRequest s)
    Test.follows_nil.toCounted (fun _ _ h _ => test_step h) (fun _ _ h hexp => test_stay h hexp)
  constructor
  · intro hfine n hall
    obtain ⟨t, ht⟩ := hfine.going hall
    exact hloop.mp hfine n t ht (ht ▸ hfine n)
  · intro hsafe
    refine hloop.mpr fun n t ht _ => ?_
    exact hsafe n (testAfter_going ht).1

end

/-- **Whatever is on the bus, `_wait_response` returns the first response in time or times out, and
`run_test` counts what is received in time, exactly if no message that they index announces bytes
that it does not carry, and the monitor hears no 0x7E2 frame without a response.** -/
theorem receive_paths_iff (timeout : Rat) (duration : PyFloat) (sendDfuRequest : Bool) (s : Traffic) :
    (WaitFine timeout s ↔ WaitSafe timeout s) ∧
      (TestFine duration sendDfuRequest s ↔ TestSafe duration sendDfuRequest s) :=
  ⟨wait_fine_iff timeout s, test_fine_iff duration sendDfuRequest s⟩

/-- one frame in the first round, and a round each second -/
def Traffic.single (f : WireFrame) : Traffic where
  start := 0
  now n := n
  later n := n
  recv n := if n = 0 then some f else none
  start_le := le_refl _
  now_le n := le_refl _
  later_le n := by exact_mod_cast Nat.le_succ n

theorem Traffic.single_within (f : WireFrame) (q : Rat) (n : Nat) :
    (Traffic.single f).Within (.fin q) n ↔ (n : Rat) < q := by
  show (n : Rat) - 0 < q ↔ _
  rw [sub_zero]

/-- a remote frame with the identifier of the response crashes both tools, and a standard frame is
reported as an ACK -/
theorem not_receive_fine :
    (waitAfter 5 (.single (.remote 0x7E2 true 1 (by decide))) 1 = .stopped .indexError ∧
      ¬ WaitFine 5 (.single (.remote 0x7E2 true 1 (by decide)))) ∧
    (testAfter (.fin 5) true (.single (.remote 0x7E2 true 1 (by decide))) 1 =
        .stopped .indexError ∧
      ¬ TestFine (.fin 5) true (.single (.remote 0x7E2 true 1 (by decide)))) ∧
    (∃ t r, testAfter (.fin 1) true (.single (.data 0x7E2 false [0] (by decide))) 2 =
        .stopped (.finished t r) ∧ r.dfuAck = some true) ∧
      ¬ TestFine (.fin 1) true (.single (.data 0x7E2 false [0] (by decide))) := by
  refine ⟨?_, ?_, ?_⟩
  · have hin : (Traffic.single (.remote 0x7E2 true 1 (by decide))).BeforeDeadline 5 0 := by
      show ((0 : Nat) : Rat) < 0 + 5
      norm_num
    have hstop : waitAfter 5 (.single (.remote 0x7E2 true 1 (by decide))) 1 =
        .stopped .indexError := waitRound_msg hin rfl
    refine ⟨hstop, fun h => ?_⟩
    exact (wait_fine_iff _ _).mp h 0 hin (Traffic.silent_zero _) _ rfl
      ⟨rfl, rfl, Nat.le_refl 1, rfl⟩
  · have hin := (Traffic.single_within (.remote 0x7E2 true 1 (by decide)) 5 0).mpr (by norm_num)
    have hstop : testAfter (.fin 5) true (.single (.remote 0x7E2 true 1 (by decide))) 1 =
        .stopped .indexError := testRound_msg (t := {}) hin rfl true
    refine ⟨hstop, fun h => ?_⟩
    have hexp := h 1
    rw [hstop] at hexp
    exact hexp
  · -- the standard frame is counted in round 0, and the time is over in round 1
    have hwithin := Traffic.single_within (.data 0x7E2 false [0] (by decide)) 1
    obtain ⟨t, ht, hack⟩ : ∃ t, testAfter (.fin 1) true
        (.single (.data 0x7E2 false [0] (by decide))) 1 = .going t ∧ t.dfuAckReceived = true :=
      ⟨_, testRound_msg (t := {}) ((hwithin 0).mpr (by norm_num)) rfl true, rfl⟩
    have hlate : ¬ Traffic.Within (.single (.data 0x7E2 false [0] (by decide))) (.fin 1) 1 :=
      fun hin => absurd ((hwithin 1).mp hin) (by norm_num)
    have helapsed : (Traffic.single (.data 0x7E2 false [0] (by decide))).later 1 -
        (Traffic.single (.data 0x7E2 false [0] (by decide))).start ≠ 0 := by
      show ((1 : Nat) : Rat) - 0 ≠ 0
      norm_num
    have hend := (after_succ_going ht).trans (testRound_late hlate true)
    rw [Test.summary_eq (.inl helapsed) true] at hend
    refine ⟨⟨t, _, hend, congrArg some hack⟩, fun h => ?_⟩
    have hexp := h 2
    unfold testAfter at hexp
    rw [hend] at hexp
    obtain ⟨msg, hmsg, hsome⟩ := (hexp.2.2 rfl).mp (congrArg some hack)
    obtain ⟨k, _, _, hk⟩ := Traffic.mem_received.mp hmsg
    obtain ⟨f, hf, rfl⟩ := Option.map_eq_some_iff.mp hk
    obtain ⟨-, hf⟩ := Option.ite_none_right_eq_some.mp hf
    obtain rfl := Option.some.inj hf
    cases hsome

end CCU
