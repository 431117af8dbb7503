import CanConverter.Lib.Meter
import CanConverter.Frames.Counts
import CanConverter.System.Step

/-!
# The statistics reports, observed

`Stats` is a monitor: it counts the increments of every counter the report prints, the wakeups that
found DFU inactive and active, and the frames that the test button counted between the two reads of
a report; and it notes between which samples each difference was printed.  The rates sample their
counters once (`sample`, `report`, `save`), the frame counts are read for the print and once more
for the baseline (`sampleReport`, `sampleSave`).

* `Sys.words`            the machine words of a counter, the differences printed so far among them;
* `Missed`               the test button counts a frame between the two reads of its count;
* `Stats.upd`            the monitor;
* `step_meter`           what one step does to a counter and its meter: an operation of the report,
                         an increment, the beginning of a report, or nothing;
* `Stats.Inv`, `inv_run` the words show the meter, in every run.
-/

namespace CCU
open Runs

/-- a counter the report can print -/
inductive Counter where
  | rs485
  | canOk
  | frames (f : Field)
deriving DecidableEq

/-- RS485 RX, CAN TX ok, and the fields in `HZ(..)` -/
def printedCounters : List Counter := .rs485 :: .canOk :: hzFields.map Counter.frames

/-- what an action of the periodic thread is to a counter -/
def Act.meterOp (c : Counter) : Act → Option Meter.Op
  | .send _ => none
  | .readRs485 => if c = .rs485 then some .sample else none
  | .readCanOk => if c = .canOk then some .sample else none
  | .logRates => if c = .rs485 ∨ c = .canOk then some .report else none
  | .logHz f => if c = .frames f then some .sampleReport else none
  | .saveRates => if c = .rs485 ∨ c = .canOk then some .save else none
  | .saveFrames f => if c = .frames f then some .sampleSave else none

/-- what the pass has left to do with a counter -/
def PeriodicPc.meterOps (c : Counter) : PeriodicPc → List Meter.Op
  | .running acts => acts.filterMap (Act.meterOp c)
  | _ => []

/-- the difference printed for a counter -/
def Printed.delta? (c : Counter) : Printed → Option UInt32
  | .rates dRs485 dCanOk =>
    match c with
    | .rs485 => some dRs485
    | .canOk => some dCanOk
    | .frames _ => none
  | .hz f n => if c = .frames f then some n else none

/-- the machine words of a counter; the frame counts are not kept in a local -/
def Sys.words (s : Sys) : Counter → Meter.Words
  | .rs485 =>
    { value := s.rs485.rs485FramesReceived
      cur := s.periodic.curRs485
      base := s.periodic.prevRs485Rx
      printed := s.periodic.printed.filterMap (Printed.delta? .rs485) }
  | .canOk =>
    { value := s.txThread.canFramesTxOk
      cur := s.periodic.curCanOk
      base := s.periodic.prevCanTxOk
      printed := s.periodic.printed.filterMap (Printed.delta? .canOk) }
  | .frames f =>
    { value := s.canTx.frameCounts f
      cur := 0
      base := s.periodic.prevFrames f
      printed := s.periodic.printed.filterMap (Printed.delta? (.frames f)) }

/-- the wakeups so far that found DFU inactive, and active -/
structure Wakeups where
  inactive : Nat := 0
  active : Nat := 0
deriving DecidableEq

/-- the wakeups of the 10 ms loop -/
def Wakeups.all (w : Wakeups) : Nat := w.inactive + w.active

def Wakeups.upd (w : Wakeups) (s : Sys) : Ev → Wakeups
  | .wake =>
    if s.canDfuIsActive then { w with active := w.active + 1 }
    else { w with inactive := w.inactive + 1 }
  | _ => w

/-- the operation of the report that the step does with a counter -/
def Sys.meterOp? (s : Sys) (e : Ev) (c : Counter) : Option Meter.Op :=
  match e, s.periodic.pc with
  | .act, .running (a :: _) => a.meterOp c
  | _, _ => none

/-- `HZ(f)` is printed, and its baseline is still to be read -/
def PeriodicPc.Between (f : Field) : PeriodicPc → Prop
  | .running acts => .logHz f ∉ acts ∧ .saveFrames f ∈ acts
  | _ => False

instance (f : Field) : DecidablePred (PeriodicPc.Between f)
  | .running acts => inferInstanceAs (Decidable (.logHz f ∉ acts ∧ .saveFrames f ∈ acts))
  | .asleep | .awake => isFalse id

/-- the sender that the test button calls next -/
def Button.next? : Button → Option Call
  | .sending (x :: _) => some x
  | _ => none

/-- the test button sends a frame whose count is between the two reads of the report -/
def Missed (s : Sys) (e : Ev) (c : Counter) : Prop :=
  e = .buttonSend ∧ ∃ x ∈ s.button.next?, c = .frames x.field ∧ s.periodic.pc.Between x.field

instance (s : Sys) (e : Ev) (c : Counter) : Decidable (Missed s e c) :=
  inferInstanceAs (Decidable (_ ∧ _))

/-- a moment, as a sample of a counter is stamped with it: the wakeups so far, and how often the
counter was `Missed` -/
structure Moment extends Wakeups where
  missed : Nat := 0
deriving DecidableEq

/-- what the monitor knows -/
structure Stats where
  wakeups : Wakeups := {}
  missed : Counter → Nat := fun _ => 0
  meter : Counter → Meter Moment := fun _ => .start {}

def Stats.moment (w : Stats) (c : Counter) : Moment := ⟨w.wakeups, w.missed c⟩

/-- the monitor: an increment is a change of the counter -/
def Stats.upd (w : Stats) (s : Sys) (e : Ev) (t : Sys) : Stats where
  wakeups := w.wakeups.upd s e
  missed c := w.missed c + if Missed s e c then 1 else 0
  meter c :=
    let m := if (t.words c).value = (s.words c).value then w.meter c else (w.meter c).inc
    match s.meterOp? e c with
    | some o => m.op (w.moment c) o
    | none => m

/-! ## the actions of a pass -/

/-- the actions that are left of a pass: senders, then the report, if it is due -/
def PassActs (acts : List Act) : Prop :=
  (∃ l, acts = sends l) ∨ (∃ l, acts = sends l ++ statsReport) ∨ acts <:+ statsReport

theorem sends_append (l l' : List Call) : sends l ++ sends l' = sends (l ++ l') :=
  List.map_append.symm

theorem meterOps_sends (c : Counter) (l : List Call) :
    (sends l).filterMap (Act.meterOp c) = [] := by
  induction l with
  | nil => rfl
  | cons x l ih => exact ih

/-- **the report does with a printed counter what a report has to do** -/
theorem meterOps_statsReport {c : Counter} (hc : c ∈ printedCounters) :
    Meter.Whole (statsReport.filterMap (Act.meterOp c)) := by
  have hall : ∀ c ∈ printedCounters,
      statsReport.filterMap (Act.meterOp c) = [.sample, .report, .save] ∨
        statsReport.filterMap (Act.meterOp c) = [.sampleReport, .sampleSave] := by
    decide
  exact hall c hc

/-- the actions of a pass in two parts -/
theorem loopActs_eq (d : MasterData) (cnt : Counters) :
    ∃ l, loopActs d cnt = sends l ++ if cnt.cnt1s + 1 = 100 then statsReport else [] := by
  have hite : ∀ (p : Prop) [Decidable p] (l : List Call),
      (if p then sends l else []) = sends (if p then l else []) := by
    intro p _ l
    split <;> rfl
  unfold loopActs
  simp only [hite, sends_append]
  by_cases hc : cnt.cnt1s + 1 = 100
  · rw [if_pos hc, if_pos hc, ← List.append_assoc, sends_append]
    exact ⟨_, rfl⟩
  · rw [if_neg hc, if_neg hc]
    exact ⟨_, rfl⟩

theorem passActs_loopActs (d : MasterData) (cnt : Counters) : PassActs (loopActs d cnt) := by
  obtain ⟨l, hl⟩ := loopActs_eq d cnt
  rw [hl]
  split
  · exact .inr (.inl ⟨l, rfl⟩)
  · exact .inl ⟨l, List.append_nil _⟩

theorem PassActs.tail {a : Act} {acts : List Act} (h : PassActs (a :: acts)) : PassActs acts := by
  obtain ⟨l, hl⟩ | ⟨l, hl⟩ | hl := h
  · cases l with
    | nil => cases hl
    | cons x l => exact .inl ⟨l, (List.cons.inj hl).2⟩
  · cases l with
    | nil =>
      refine .inr (.inr ?_)
      rw [show statsReport = a :: acts from hl.symm]
      exact List.suffix_cons a acts
    | cons x l => exact .inr (.inl ⟨l, (List.cons.inj hl).2⟩)
  · exact .inr (.inr ((List.suffix_cons a acts).trans hl))

section
variable {c : Counter} {acts : List Act}

/-- the operations that are left, whatever was done already -/
theorem PassActs.left (hc : c ∈ printedCounters) (h : PassActs acts) :
    Meter.Left (acts.filterMap (Act.meterOp c)) := by
  have hwhole := (meterOps_statsReport hc).left
  obtain ⟨l, rfl⟩ | ⟨l, rfl⟩ | hl := h
  · rw [meterOps_sends]
    exact .done
  · rw [List.filterMap_append, meterOps_sends]
    exact hwhole
  · exact hwhole.of_suffix (hl.filterMap _)

/-- while senders are left the report has not begun -/
theorem PassActs.send_head (hc : c ∈ printedCounters) {x : Call}
    (h : PassActs (.send x :: acts)) :
    (acts.filterMap (Act.meterOp c)).head? ≠ some .sampleSave := by
  obtain ⟨l, hl⟩ | ⟨l, hl⟩ | hl := h
  · cases l with
    | nil => cases hl
    | cons y l =>
      rw [(List.cons.inj hl).2]
      exact fun hh => nomatch (meterOps_sends c l ▸ hh)
  · cases l with
    | nil => cases hl
    | cons y l =>
      obtain rfl : acts = sends l ++ statsReport := (List.cons.inj hl).2
      rw [List.filterMap_append, meterOps_sends, List.nil_append]
      obtain hw | hw := meterOps_statsReport hc
      · rw [hw]
        exact nofun
      · rw [hw]
        exact nofun
  · have hmem : Act.send x ∈ statsReport := hl.subset List.mem_cons_self
    have hno : ∀ a ∈ statsReport, a.call? = none := by decide
    cases hno _ hmem

end

/-! ## what a step does to a counter -/

section
variable {pbDecode : List UInt8 → Option MasterFrame} {cd : Candef} {s t : Sys} {e : Ev}

theorem txThread_canFramesTxOk {s t : TxThread CanFrame} {e : TxEv CanFrame}
    (h : s.step e = some t) :
    t.canFramesTxOk = s.canFramesTxOk ∨ t.canFramesTxOk = s.canFramesTxOk + 1 := by
  cases e with
  | get frame =>
    obtain ⟨_, rfl⟩ := TxThread.step_get h
    exact .inl rfl
  | canSend ret =>
    obtain ⟨_, _, ⟨_, rfl⟩ | ⟨_, rfl⟩⟩ := TxThread.step_canSend h
    · exact .inl rfl
    · exact .inl rfl
  | semTake =>
    obtain ⟨_, _, _, rfl⟩ := TxThread.step_semTake h
    exact .inl rfl
  | semTimeout =>
    obtain ⟨_, _, _, rfl⟩ := TxThread.step_semTimeout h
    exact .inl rfl
  | testResult =>
    obtain ⟨_, _, ⟨_, rfl⟩ | ⟨_, rfl⟩⟩ := TxThread.step_testResult h
    · exact .inl rfl
    · exact .inl rfl
  | logError =>
    obtain ⟨_, _, rfl⟩ := TxThread.step_logError h
    exact .inl rfl
  | countOk =>
    obtain ⟨_, _, rfl⟩ := TxThread.step_countOk h
    exact .inr rfl
  | callbackWrite n error =>
    obtain ⟨_, rfl⟩ := TxThread.step_callbackWrite h
    exact .inl rfl
  | callbackGive n error =>
    obtain ⟨_, rfl⟩ := TxThread.step_callbackGive h
    exact .inl rfl

theorem onFrame_count (pbDecode : List UInt8 → Option MasterFrame) (decoded : List UInt8)
    (r : Rs485) :
    (onFrame pbDecode decoded r).rs485FramesReceived = r.rs485FramesReceived ∨
      (onFrame pbDecode decoded r).rs485FramesReceived = r.rs485FramesReceived + 1 := by
  unfold onFrame
  split
  · exact .inl rfl
  · exact .inr rfl

theorem words_exec (cd : Candef) (s : Sys) (x : Call) (c : Counter) :
    ({ s with canTx := x.exec cd s.canTx } : Sys).words c =
      if c = .frames x.field then { s.words c with value := (s.words c).value + 1 }
      else s.words c := by
  cases c with
  | rs485 | canOk => rfl
  | frames f =>
    unfold Sys.words
    simp only [CanTx.exec_frameCounts, Counter.frames.injEq]
    by_cases hf : f = x.field
    · rw [if_pos hf, hf, Function.update_self]
    · rw [if_neg hf, Function.update_of_ne hf]

/-- **an action of the report is its operation on the words of a counter** -/
theorem words_doAct (cd : Candef) (s : Sys) {a : Act} (ha : a.call? = none) (c : Counter) :
    (s.doAct cd a).words c =
      match a.meterOp c with
      | some o => (s.words c).op o
      | none => s.words c := by
  cases a with
  | send x => cases ha
  | readRs485 => cases c <;> rfl
  | readCanOk => cases c <;> rfl
  | logRates =>
    cases c <;> simp [Sys.doAct, Sys.words, Act.meterOp, Meter.Words.op, Printed.delta?]
  | saveRates => cases c <;> rfl
  | logHz f =>
    cases c with
    | rs485 | canOk => simp [Sys.doAct, Sys.words, Act.meterOp, Printed.delta?]
    | frames g =>
      by_cases hg : g = f
      · simp [Sys.doAct, Sys.words, Act.meterOp, Meter.Words.op, Printed.delta?, hg]
      · simp [Sys.doAct, Sys.words, Act.meterOp, Printed.delta?, hg]
  | saveFrames f =>
    cases c with
    | rs485 | canOk => simp [Sys.doAct, Sys.words, Act.meterOp]
    | frames g =>
      by_cases hg : g = f
      · simp [Sys.doAct, Sys.words, Act.meterOp, Meter.Words.op, hg]
      · simp [Sys.doAct, Sys.words, Act.meterOp, hg]

theorem missed_iff {s : Sys} {x : Call} {l : List Call} {c : Counter}
    (hb : s.button = .sending (x :: l)) :
    Missed s .buttonSend c ↔ c = .frames x.field ∧ s.periodic.pc.Between x.field := by
  unfold Missed Button.next?
  simp only [hb, Option.mem_some_iff, true_and, exists_eq_left']

/-- one step, as the counter `c` with the words `v` and the meter `m` sees it, when `l` is left to be
done with it -/
inductive MeterStep (missed : Prop) (w : Moment) (m : Meter Moment) (v : Meter.Words) :
    List Meter.Op → Meter Moment → Meter.Words → List Meter.Op → Prop where
  | op {o : Meter.Op} {l : List Meter.Op} (hl : Meter.Left (o :: l)) (hm : ¬ missed) :
    MeterStep missed w m v (o :: l) (m.op w o) (v.op o) l
  | inc {l : List Meter.Op} (hm : missed ↔ l.head? = some .sampleSave) :
    MeterStep missed w m v l m.inc { v with value := v.value + 1 } l
  | begin {l : List Meter.Op} (hl : Meter.Whole l) (hm : ¬ missed) : MeterStep missed w m v [] m v l
  | same {l : List Meter.Op} (hm : ¬ missed) : MeterStep missed w m v l m v l

/-- the actions of the pass -/
def Sys.InPass (s : Sys) : Prop := ∀ acts, s.periodic.pc = .running acts → PassActs acts

theorem meterOps_left {c : Counter} (hc : c ∈ printedCounters) (hp : s.InPass) :
    Meter.Left (s.periodic.pc.meterOps c) := by
  cases hpc : s.periodic.pc with
  | asleep => exact .done
  | awake => exact .done
  | running acts => exact (hp acts hpc).left hc

theorem frames_mem {f : Field} : Counter.frames f ∈ printedCounters ↔ f ∈ hzFields := by
  simp [printedCounters]

/-- between the two reads of the report the baseline comes next -/
theorem between_iff {f : Field} (hf : f ∈ hzFields) (hp : s.InPass) :
    s.periodic.pc.Between f ↔
      (s.periodic.pc.meterOps (.frames f)).head? = some .sampleSave := by
  have hlog : ∀ a : Act, a.meterOp (.frames f) = some .sampleReport ↔ a = .logHz f := by
    intro a
    cases a <;> simp [Act.meterOp, eq_comm]
  have hsave : ∀ a : Act, a.meterOp (.frames f) = some .sampleSave ↔ a = .saveFrames f := by
    intro a
    cases a <;> simp [Act.meterOp, eq_comm]
  rw [(meterOps_left (frames_mem.mpr hf) hp).head_sampleSave]
  unfold PeriodicPc.Between PeriodicPc.meterOps
  cases s.periodic.pc with
  | asleep | awake => simp
  | running acts => simp only [List.mem_filterMap, hlog, hsave, exists_eq_right]

/-- the monitor in a step that is no operation of the report -/
theorem meter_of_words {c : Counter} (w : Stats) (hop : s.meterOp? e c = none) :
    (t.words c = s.words c → (w.upd s e t).meter c = w.meter c) ∧
      (t.words c = { s.words c with value := (s.words c).value + 1 } →
        (w.upd s e t).meter c = (w.meter c).inc) := by
  unfold Stats.upd
  simp only [hop]
  constructor
  · intro hw
    rw [hw, if_pos rfl]
  · intro hw
    rw [hw]
    exact if_neg (CanTx.add_one_ne _)

theorem MeterStep.of_words {c : Counter} {missed : Prop} (w : Stats)
    (hop : s.meterOp? e c = none) (hl : t.periodic.pc.meterOps c = s.periodic.pc.meterOps c)
    (hw : (t.words c = s.words c ∧ ¬ missed) ∨
      t.words c = { s.words c with value := (s.words c).value + 1 } ∧
        (missed ↔ (s.periodic.pc.meterOps c).head? = some .sampleSave)) :
    MeterStep missed (w.moment c) (w.meter c) (s.words c) (s.periodic.pc.meterOps c)
      ((w.upd s e t).meter c) (t.words c) (t.periodic.pc.meterOps c) := by
  obtain ⟨hsame, hinc⟩ := meter_of_words (t := t) w hop
  rw [hl]
  obtain ⟨hw, hm⟩ | ⟨hw, hm⟩ := hw
  · rw [hsame hw, hw]
    exact .same hm
  · rw [hinc hw, hw]
    exact .inc hm

theorem words_setPc (s : Sys) (pc : PeriodicPc) (c : Counter) :
    (s.setPc pc).words c = s.words c := by
  cases c <;> rfl

theorem words_setCnt (s : Sys) (cnt : Counters) (c : Counter) :
    (s.setCnt cnt).words c = s.words c := by
  cases c <;> rfl

/-- the rates move their baseline to what they printed -/
theorem rates_head (c : Counter) (hc : ∀ f, c ≠ .frames f) (pc : PeriodicPc) :
    (pc.meterOps c).head? ≠ some .sampleSave := by
  intro hh
  have hmem := List.mem_of_mem_head? hh
  cases pc with
  | asleep => cases hmem
  | awake => cases hmem
  | running acts =>
    obtain ⟨a, _, ha⟩ := List.mem_filterMap.mp hmem
    cases a with
    | saveFrames f => exact hc f (by simpa [Act.meterOp] using ha)
    | _ => simp [Act.meterOp] at ha

/-- a report begins at every pass that finds `cnt_1s` at its end -/
theorem snapshot_meterOps (hok : s.periodic.cnt.Ok)
    (h : Sys.step pbDecode cd s .snapshot = some t) (c : Counter) :
    t.periodic.pc.meterOps c =
      if s.periodic.cnt.cnt1s + 1 = 100 then statsReport.filterMap (Act.meterOp c) else [] := by
  obtain ⟨_, rfl⟩ := Sys.step_snapshot h
  obtain ⟨l, hl⟩ := loopActs_eq s.rs485.data s.periodic.cnt
  rw [Sys.pc_setPc, (loopBody_is s.rs485.data hok).acts]
  unfold PeriodicPc.meterOps
  simp only [hl, List.filterMap_append, meterOps_sends, List.nil_append]
  split
  · rfl
  · rfl

theorem words_snapshot (h : Sys.step pbDecode cd s .snapshot = some t) (c : Counter) :
    t.words c = s.words c := by
  obtain ⟨_, rfl⟩ := Sys.step_snapshot h
  rw [words_setPc, words_setCnt]

theorem upd_snapshot_meter (w : Stats) (h : Sys.step pbDecode cd s .snapshot = some t)
    (c : Counter) : (w.upd s .snapshot t).meter c = w.meter c :=
  (meter_of_words w rfl).1 (words_snapshot h c)

theorem words_received {b : List UInt8} (h : Sys.step pbDecode cd s (.received b) = some t)
    (c : Counter) :
    t.words c = s.words c ∨
      (∀ f, c ≠ .frames f) ∧ t.words c = { s.words c with value := (s.words c).value + 1 } := by
  rw [Sys.step_received h]
  cases c with
  | rs485 =>
    unfold Sys.words
    obtain hr | hr := onFrame_count pbDecode b s.rs485
    · exact .inl (by rw [hr])
    · exact .inr ⟨nofun, by rw [hr]⟩
  | canOk | frames f => exact .inl rfl

theorem words_tx {e : TxEv CanFrame} (h : Sys.step pbDecode cd s (.tx e) = some t) (c : Counter) :
    t.words c = s.words c ∨
      (∀ f, c ≠ .frames f) ∧ t.words c = { s.words c with value := (s.words c).value + 1 } := by
  obtain ⟨q, u, hu, rfl⟩ := Sys.step_tx_some h
  cases c with
  | canOk =>
    unfold Sys.words
    obtain hr | hr := txThread_canFramesTxOk hu
    · exact .inl (by rw [hr])
    · exact .inr ⟨nofun, by rw [hr]⟩
  | rs485 | frames f => exact .inl rfl

/-- a step of another thread that can only count for a rate -/
theorem MeterStep.of_rate {c : Counter} {missed : Prop} (w : Stats)
    (hop : s.meterOp? e c = none) (hl : t.periodic.pc.meterOps c = s.periodic.pc.meterOps c)
    (hm : ¬ missed)
    (hw : t.words c = s.words c ∨
      (∀ f, c ≠ .frames f) ∧ t.words c = { s.words c with value := (s.words c).value + 1 }) :
    MeterStep missed (w.moment c) (w.meter c) (s.words c) (s.periodic.pc.meterOps c)
      ((w.upd s e t).meter c) (t.words c) (t.periodic.pc.meterOps c) := by
  refine .of_words w hop hl ?_
  obtain hw | ⟨hc, hw⟩ := hw
  · exact .inl ⟨hw, hm⟩
  · exact .inr ⟨hw, iff_of_false hm (rates_head c hc _)⟩

/-- the operation of the report that the first action is -/
theorem meterOp?_act {a : Act} {l : List Act} (hpc : s.periodic.pc = .running (a :: l))
    (c : Counter) : s.meterOp? .act c = a.meterOp c := by
  unfold Sys.meterOp?
  rw [hpc]

theorem meterOps_cons (a : Act) (l : List Act) (c : Counter) :
    (PeriodicPc.running (a :: l)).meterOps c =
      (a.meterOp c).toList ++ (PeriodicPc.running l).meterOps c := by
  show (a :: l).filterMap (Act.meterOp c) = _
  rw [List.filterMap_cons]
  cases a.meterOp c <;> rfl

/-- a sender of the pass counts for its own field, of which the report has not begun -/
theorem step_meter_send (w : Stats) (hp : s.InPass) {x : Call} {l : List Act}
    (hpc : s.periodic.pc = .running (.send x :: l)) {c : Counter} (hc : c ∈ printedCounters)
    (hm : ¬ Missed s .act c) (ht : t = (s.doAct cd (.send x)).setPc (.running l)) :
    MeterStep (Missed s .act c) (w.moment c) (w.meter c) (s.words c) (s.periodic.pc.meterOps c)
      ((w.upd s .act t).meter c) (t.words c) (t.periodic.pc.meterOps c) := by
  subst ht
  have hleft : s.periodic.pc.meterOps c = (PeriodicPc.running l).meterOps c := by
    rw [hpc, meterOps_cons]
    rfl
  have hw := words_exec cd s x c
  refine .of_words w (meterOp?_act hpc c) hleft.symm ?_
  rw [words_setPc]
  by_cases hf : c = .frames x.field
  · rw [if_pos hf] at hw
    refine .inr ⟨hw, iff_of_false hm ?_⟩
    rw [hleft]
    exact (hp _ hpc).send_head hc
  · rw [if_neg hf] at hw
    exact .inl ⟨hw, hm⟩

theorem step_meter_report (w : Stats) (hp : s.InPass) {a : Act} {l : List Act}
    (hpc : s.periodic.pc = .running (a :: l)) (ha : a.call? = none) {c : Counter}
    (hc : c ∈ printedCounters) (hm : ¬ Missed s .act c)
    (ht : t = (s.doAct cd a).setPc (.running l)) :
    MeterStep (Missed s .act c) (w.moment c) (w.meter c) (s.words c) (s.periodic.pc.meterOps c)
      ((w.upd s .act t).meter c) (t.words c) (t.periodic.pc.meterOps c) := by
  subst ht
  have hop := meterOp?_act hpc c
  have hleft : s.periodic.pc.meterOps c =
      (a.meterOp c).toList ++ (PeriodicPc.running l).meterOps c := by
    rw [hpc, meterOps_cons]
  have hall := meterOps_left hc hp
  have hw := words_doAct cd s ha c
  cases ho : a.meterOp c with
  | none =>
    rw [ho] at hw hop hleft
    refine .of_words w hop hleft.symm (.inl ⟨?_, hm⟩)
    rw [words_setPc]
    exact hw
  | some o =>
    rw [ho] at hw hop hleft
    have hv : (((s.doAct cd a).setPc (.running l)).words c).value = (s.words c).value := by
      rw [words_setPc, hw]
      cases o <;> rfl
    have hmeter : (w.upd s .act ((s.doAct cd a).setPc (.running l))).meter c =
        (w.meter c).op (w.moment c) o := by
      unfold Stats.upd
      simp only [hop]
      rw [if_pos hv]
    rw [hmeter, words_setPc, hw, hleft]
    rw [hleft] at hall
    exact .op hall hm

/-- the test button sends a frame: the report can be between its two reads of the count -/
theorem step_meter_buttonSend (w : Stats) (hp : s.InPass)
    (h : Sys.step pbDecode cd s .buttonSend = some t) {c : Counter} (hc : c ∈ printedCounters) :
    MeterStep (Missed s .buttonSend c) (w.moment c) (w.meter c) (s.words c)
      (s.periodic.pc.meterOps c) ((w.upd s .buttonSend t).meter c) (t.words c)
      (t.periodic.pc.meterOps c) := by
  obtain ⟨x, l, hb, rfl⟩ := Sys.step_buttonSend h
  have hw := words_exec cd s x c
  refine .of_words w rfl rfl ?_
  rw [missed_iff hb]
  by_cases hf : c = .frames x.field
  · rw [if_pos hf] at hw
    refine .inr ⟨by cases c <;> exact hw, ?_⟩
    subst hf
    rw [← between_iff (frames_mem.mp hc) hp, and_iff_right rfl]
  · rw [if_neg hf] at hw
    exact .inl ⟨by cases c <;> exact hw, fun hm => hf hm.1⟩

/-- **what a step does to a printed counter** -/
theorem step_meter (w : Stats) (hp : s.InPass) (hok : s.periodic.cnt.Ok)
    (h : Sys.step pbDecode cd s e = some t) {c : Counter} (hc : c ∈ printedCounters) :
    MeterStep (Missed s e c) (w.moment c) (w.meter c) (s.words c) (s.periodic.pc.meterOps c)
      ((w.upd s e t).meter c) (t.words c) (t.periodic.pc.meterOps c) := by
  have hkept : e.thread ≠ .periodic → t.periodic.pc.meterOps c = s.periodic.pc.meterOps c := by
    intro he
    rw [(Sys.step_kept h).periodic he]
  have hm : e ≠ .buttonSend → ¬ Missed s e c := fun he hm => he hm.1
  cases e with
  | received b => exact .of_rate w rfl (hkept nofun) (hm nofun) (words_received h c)
  | wake =>
    have hnil : s.periodic.pc.meterOps c = [] := by rw [(Sys.step_wake h).1]; rfl
    obtain ⟨hpc, ⟨_, rfl⟩ | ⟨_, rfl⟩⟩ := Sys.step_wake h
    · refine .of_rate w rfl hnil.symm (hm nofun) (.inl ?_)
      rw [words_setPc, words_setCnt]
    · refine .of_rate w rfl hnil.symm (hm nofun) (.inl ?_)
      rw [words_setPc]
  | snapshot =>
    have hnil : s.periodic.pc.meterOps c = [] := by rw [(Sys.step_snapshot h).1]; rfl
    rw [upd_snapshot_meter w h c, words_snapshot h c, snapshot_meterOps hok h c, hnil]
    split
    · exact .begin (meterOps_statsReport hc) (hm nofun)
    · exact .same (hm nofun)
  | act =>
    obtain ⟨a, l, hpc, ht⟩ := Sys.step_act h
    cases ha : a.call? with
    | some x =>
      obtain rfl : a = .send x := by cases a <;> cases ha; rfl
      exact step_meter_send w hp hpc hc (hm nofun) ht
    | none => exact step_meter_report w hp hpc ha hc (hm nofun) ht
  | sleep =>
    obtain ⟨hpc, rfl⟩ := Sys.step_sleep h
    have hnil : s.periodic.pc.meterOps c = [] := by rw [hpc]; rfl
    refine .of_rate w rfl hnil.symm (hm nofun) (.inl ?_)
    rw [words_setPc]
  | press =>
    refine .of_rate w rfl (hkept nofun) (hm nofun) (.inl ?_)
    obtain ⟨_, rfl⟩ := Sys.step_press h
    cases c <;> rfl
  | buttonSend => exact step_meter_buttonSend w hp h hc
  | buttonDone =>
    refine .of_rate w rfl (hkept nofun) (hm nofun) (.inl ?_)
    obtain ⟨_, rfl⟩ := Sys.step_buttonDone h
    cases c <;> rfl
  | dfuStart =>
    refine .of_rate w rfl (hkept nofun) (hm nofun) (.inl ?_)
    obtain ⟨_, rfl⟩ := Sys.step_dfuStart h
    cases c <;> rfl
  | dfuEnd =>
    refine .of_rate w rfl (hkept nofun) (hm nofun) (.inl ?_)
    obtain ⟨_, rfl⟩ := Sys.step_dfuEnd h
    cases c <;> rfl
  | tx e => exact .of_rate w rfl (hkept nofun) (hm nofun) (words_tx h c)
  | busOff =>
    refine .of_rate w rfl (hkept nofun) (hm nofun) (.inl ?_)
    rw [Sys.step_busOff h]
    cases c <;> rfl

/-! ## every run -/

section
variable {missed : Prop} {w : Moment} {m m' : Meter Moment} {v v' : Meter.Words}
  {l l' : List Meter.Op}

theorem MeterStep.ordered (h : MeterStep missed w m v l m' v' l') (ho : m.Ordered l) :
    m'.Ordered l' := by
  cases h with
  | op hl _ => exact ho.op hl
  | inc _ => exact ho.inc
  | begin hl _ => exact ho.begin hl
  | same _ => exact ho

theorem MeterStep.shows (h : MeterStep missed w m v l m' v' l') (ho : m.Ordered l)
    (hs : m.Shows v) : m'.Shows v' := by
  cases h with
  | op hl _ => exact hs.op ho
  | inc _ => exact hs.inc
  | begin _ _ => exact hs
  | same _ => exact hs

/-- **the windows of a counter go on exactly if no increment is missed** -/
theorem MeterStep.settled_iff (h : MeterStep missed w m v l m' v' l') (ho : m.Ordered l)
    (hs : m.Settled l) : m'.Settled l' ↔ ¬ missed := by
  cases h with
  | op hl hm => exact iff_of_true (hs.op hl ho) hm
  | inc hm => rw [Meter.settled_inc_iff hs, hm]
  | begin hl hm => exact iff_of_true (hs.begin hl) hm
  | same hm => exact iff_of_true hs hm

end

/-- the meters are true to the machine words -/
structure Stats.Inv (p : Stats × Sys) : Prop where
  cnt : p.2.periodic.cnt.Ok
  pass : p.2.InPass
  ordered : ∀ c ∈ printedCounters, (p.1.meter c).Ordered (p.2.periodic.pc.meterOps c)
  shows : ∀ c ∈ printedCounters, (p.1.meter c).Shows (p.2.words c)

theorem Stats.Inv.start : Stats.Inv ({}, {}) := by
  refine ⟨Counters.ok_init, nofun, fun _ _ => .start _, fun c _ => ?_⟩
  cases c <;> exact ⟨rfl, rfl, rfl, rfl⟩

theorem step_inPass (hok : s.periodic.cnt.Ok) (hp : s.InPass)
    (h : Sys.step pbDecode cd s e = some t) : t.InPass := by
  by_cases he : e.thread = .periodic
  · intro acts hacts
    cases e with
    | wake => exact .inl ⟨[], Sys.step_wake_acts hok h hacts⟩
    | snapshot =>
      rw [Sys.step_snapshot_acts hok h hacts]
      exact passActs_loopActs _ _
    | act =>
      obtain ⟨a, l, hpc, rfl⟩ := Sys.step_act h
      obtain rfl := PeriodicPc.running.inj hacts
      exact (hp _ hpc).tail
    | sleep =>
      obtain ⟨_, rfl⟩ := Sys.step_sleep h
      cases hacts
    | _ => cases he
  · unfold Sys.InPass
    rw [(Sys.step_kept h).periodic he]
    exact hp

/-- the unit with the monitor -/
abbrev Stats.step (pbDecode : List UInt8 → Option MasterFrame) (cd : Candef) :
    Stats × Sys → Ev → Option (Stats × Sys) :=
  watch Stats.upd (Sys.step pbDecode cd)

variable {p q : Stats × Sys}

theorem Stats.step_meter (hi : Stats.Inv p) (h : Stats.step pbDecode cd p e = some q)
    {c : Counter} (hc : c ∈ printedCounters) :
    MeterStep (Missed p.2 e c) (p.1.moment c) (p.1.meter c) (p.2.words c)
      (p.2.periodic.pc.meterOps c) (q.1.meter c) (q.2.words c) (q.2.periodic.pc.meterOps c) := by
  obtain ⟨hs, hq⟩ := watch_some.mp h
  rw [hq]
  exact CCU.step_meter p.1 hi.pass hi.cnt hs hc

theorem Stats.Inv.step (hi : Stats.Inv p) (h : Stats.step pbDecode cd p e = some q) :
    Stats.Inv q := by
  obtain ⟨hs, _⟩ := watch_some.mp h
  refine ⟨Sys.step_cnt_ok hi.cnt hs, step_inPass hi.cnt hi.pass hs, fun c hc => ?_, fun c hc => ?_⟩
  · exact (Stats.step_meter hi h hc).ordered (hi.ordered c hc)
  · exact (Stats.step_meter hi h hc).shows (hi.ordered c hc) (hi.shows c hc)

/-- **the words show the meters after every run** -/
theorem Stats.inv_run {l : List Ev} (h : run (Stats.step pbDecode cd) ({}, {}) l = some p) :
    Stats.Inv p :=
  Runs.inv_run (fun _ _ _ hi ht => Stats.Inv.step hi ht) Stats.Inv.start h

end

end CCU
