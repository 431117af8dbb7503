import CanConverter.Lib.Lock
import CanConverter.Master.Store

/-!
# `data_mutex`

The three users of `data`: `on_frame` stores a payload, the periodic thread and the test button copy
the struct to their stack.  Each does so in the machine operations its section is compiled to
(`Sections`, any such operations), interleaved with the steps of the others.

`on_frame` raises `rs485_frames_received` after it has released the mutex.

* `copied_refines`   no copy is torn: it is the store after the sections of `on_frame` that came
                     before its own;
* `at_rest`          when the parser thread is between two frames and nobody holds the mutex, the
                     store and the counter are what `onFrame` makes of the frames, one at a time.
-/

namespace CCU
open Runs Lock

inductive ReaderId where
  | periodic | button
deriving DecidableEq

/-- the threads that take `data_mutex` -/
inductive User where
  | parser
  | reader (r : ReaderId)
deriving DecidableEq

/-- where `on_frame` is: not called, before `k_mutex_lock`, or after its critical section -/
inductive ParserPc where
  | idle
  | decoded (frame : MasterFrame)
  | stored
deriving DecidableEq

structure ParserThread where
  pc : ParserPc := .idle
  rs485FramesReceived : UInt32 := 0

/-- the local `d` of a reader, and whether it has been copied -/
structure Reader where
  d : MasterData := {}
  copied : Bool := false

inductive ParserAct where
  | decode (decoded : List UInt8)
  | count

def User.Local : User → Type
  | .parser => ParserThread
  | .reader _ => Reader

/-- what a section depends on: the frame, for `on_frame` -/
def User.Sect : User → Type
  | .parser => MasterFrame
  | .reader _ => Unit

def User.Act : User → Type
  | .parser => ParserAct
  | .reader _ => Unit

/-- the operations of the critical sections, of any size, that do what the C statements say -/
structure Sections where
  store : MasterFrame → List (MasterData × ParserThread → MasterData × ParserThread)
  copy : List (MasterData × Reader → MasterData × Reader)
  store_exec : ∀ frame data p, exec (store frame) (data, p) =
    (storePayload frame data, { p with pc := .stored })
  copy_exec : ∀ data r, exec copy (data, r) = (data, { d := data, copied := true })

/-- one write to `data` -/
def write (g : MasterData → MasterData) (x : MasterData × ParserThread) :
    MasterData × ParserThread := (g x.1, x.2)

/-- one field of `d = data` -/
def read (g : MasterData → MasterData → MasterData) (x : MasterData × Reader) :
    MasterData × Reader := (x.1, { x.2 with d := g x.1 x.2.d })

/-- the `switch` of `on_frame`, one assignment at a time -/
def storeStatements (frame : MasterFrame) :
    List (MasterData × ParserThread → MasterData × ParserThread) :=
  (if frame.whichPayload = masterMeasurementsTag then
    [write fun data => { data with masterMeasurements := frame.payload.masterMeasurements },
      write fun data => { data with masterMeasurementsValid := true }]
  else if frame.whichPayload = masterStatusTag then
    [write fun data => { data with masterStatus := frame.payload.masterStatus },
      write fun data => { data with masterStatusValid := true }]
  else if frame.whichPayload = protiumValuesTag then
    [write fun data => { data with protiumValues := frame.payload.protiumValues },
      write fun data => { data with protiumValuesValid := true }]
  else if frame.whichPayload = protiumOperatingStateTag then
    [write fun data =>
        { data with
          protiumOperatingState := frame.payload.protiumOperatingState.currentState },
      write fun data => { data with protiumOperatingStateValid := true }]
  else if frame.whichPayload = masterFaultsTag then
    [write fun data => { data with masterFaults := frame.payload.masterFaults },
      write fun data => { data with masterFaultsValid := true }]
  else []) ++
  [fun x => (x.1, { x.2 with pc := .stored })]

/-- `d = data`, one member at a time -/
def copyStatements : List (MasterData × Reader → MasterData × Reader) :=
  [read fun data d => { d with masterMeasurements := data.masterMeasurements },
    read fun data d => { d with masterMeasurementsValid := data.masterMeasurementsValid },
    read fun data d => { d with masterStatus := data.masterStatus },
    read fun data d => { d with masterStatusValid := data.masterStatusValid },
    read fun data d => { d with protiumValues := data.protiumValues },
    read fun data d => { d with protiumValuesValid := data.protiumValuesValid },
    read fun data d => { d with protiumOperatingState := data.protiumOperatingState },
    read fun data d => { d with protiumOperatingStateValid := data.protiumOperatingStateValid },
    read fun data d => { d with masterFaults := data.masterFaults },
    read fun data d => { d with masterFaultsValid := data.masterFaultsValid },
    fun x => (x.1, { x.2 with copied := true })]

def Sections.statements : Sections where
  store := storeStatements
  copy := copyStatements
  store_exec frame data p := by
    unfold storeStatements storePayload
    split_ifs <;> rfl
  copy_exec data r := by
    unfold copyStatements
    simp only [exec_cons, exec_nil, read]

section
variable (pbDecode : List UInt8 → Option MasterFrame) (S : Sections)

/-- `on_frame` up to `k_mutex_lock`, and from `k_mutex_unlock` on -/
def ParserThread.act (p : ParserThread) : ParserAct → Option ParserThread
  | .decode decoded =>
    if p.pc = .idle then
      match pbDecode decoded with
      | none => some p -- "NanoPB decode failed"
      | some frame => some { p with pc := .decoded frame }
    else none
  | .count =>
    if p.pc = .stored then
      some { pc := .idle, rs485FramesReceived := p.rs485FramesReceived + 1 }
    else none

/-- the next pass, or the next press: a fresh `d = {0}` -/
def Reader.again (r : Reader) : Option Reader := if r.copied then some {} else none

def dataMutex : Lock MasterData User.Local User.Sect User.Act where
  ops
    | .parser, frame => S.store frame
    | .reader _, _ => S.copy
  may
    | .parser, frame, p => decide (ParserThread.pc p = .decoded frame)
    | .reader _, _, r => !Reader.copied r
  priv
    | .parser, a, p => ParserThread.act pbDecode p a
    | .reader _, _, r => Reader.again r

end

/-- the locals before anything has happened -/
def User.init : ∀ u : User, u.Local
  | .parser => ({} : ParserThread)
  | .reader _ => ({} : Reader)

/-- the store and the threads before anything has happened -/
def Held.start : Held MasterData User.Local := { st := { shared := {}, own := User.init } }

/-- the byte strings given to `on_frame` -/
def decodes (a : List (Atom User.Sect User.Act)) : List (List UInt8) :=
  a.filterMap fun
    | .priv .parser (.decode b) => some b
    | _ => none

/-- the frames stored, in the order of the sections -/
def stores (a : List (Atom User.Sect User.Act)) : List MasterFrame :=
  a.filterMap fun
    | .sect .parser frame => some frame
    | _ => none

/-- the section of the reader `r` -/
def Atom.IsCopy (r : ReaderId) : Atom User.Sect User.Act → Prop
  | .sect (.reader r') _ => r' = r
  | _ => False

/-- the frame that is decoded and not yet stored -/
def ParserPc.inHand : ParserPc → List MasterFrame
  | .decoded frame => [frame]
  | _ => []

/-- the frame that is stored and not yet counted -/
def ParserPc.uncounted : ParserPc → UInt32
  | .stored => 1
  | _ => 0

/-- `on_frame` and its counter -/
def parserOf (c : St MasterData User.Local) : ParserThread := c.own .parser

/-- the local of the reader `r` -/
def readerOf (r : ReaderId) (c : St MasterData User.Local) : Reader := c.own (.reader r)

/-- the store after the frames `fs` -/
def storeAll (fs : List MasterFrame) : MasterData :=
  fs.foldl (fun data frame => storePayload frame data) {}

theorem storeAll_snoc (fs : List MasterFrame) (f : MasterFrame) :
    storeAll (fs ++ [f]) = storePayload f (storeAll fs) := by
  unfold storeAll
  rw [List.foldl_append, List.foldl_cons, List.foldl_nil]

theorem storeAll_refines (fs : List MasterFrame) : (storeAll fs).Refines (Latest.of fs) := by
  induction fs using List.reverseRecOn with
  | nil => exact MasterData.refines_init
  | append_singleton fs f ih =>
    rw [storeAll_snoc]
    exact storePayload_refines f ih

/-- the frames of `bs` one at a time, each with its count -/
theorem onFrame_foldl (pbDecode : List UInt8 → Option MasterFrame) (bs : List (List UInt8)) :
    bs.foldl (fun r b => onFrame pbDecode b r) {} =
      { data := storeAll (accepted pbDecode bs)
        rs485FramesReceived := UInt32.ofNat (accepted pbDecode bs).length } := by
  induction bs using List.reverseRecOn with
  | nil => rfl
  | append_singleton bs b ih =>
    rw [List.foldl_append, List.foldl_cons, List.foldl_nil, ih, accepted_snoc]
    unfold onFrame
    cases hb : pbDecode b with
    | none => rw [Option.toList_none, List.append_nil]
    | some f =>
      rw [Option.toList_some, storeAll_snoc, List.length_append, List.length_singleton,
        UInt32.ofNat_add]
      rfl

section
variable {pbDecode : List UInt8 → Option MasterFrame} {S : Sections}
  {c c' : St MasterData User.Local} {a : List (Atom User.Sect User.Act)}

theorem atomic_store {frame : MasterFrame}
    (h : atomicStep (dataMutex pbDecode S) c (.sect .parser frame) = some c') :
    (parserOf c).pc = .decoded frame ∧
      c' = c.set .parser (storePayload frame c.shared, { parserOf c with pc := .stored }) := by
  obtain ⟨hm, rfl⟩ := atomic_sect h
  refine ⟨of_decide_eq_true hm, ?_⟩
  exact congrArg (c.set .parser) (S.store_exec frame c.shared (parserOf c))

theorem atomic_copy {r : ReaderId} {k : Unit}
    (h : atomicStep (dataMutex pbDecode S) c (.sect (.reader r) k) = some c') :
    c' = c.set (.reader r) (c.shared, { d := c.shared, copied := true }) := by
  obtain ⟨_, rfl⟩ := atomic_sect h
  exact congrArg (c.set (.reader r)) (S.copy_exec c.shared (readerOf r c))

/-- the store and the parser thread after the sections and steps `a` -/
structure ParserOk (pbDecode : List UInt8 → Option MasterFrame)
    (a : List (Atom User.Sect User.Act)) (c : St MasterData User.Local) : Prop where
  data : c.shared = storeAll (stores a)
  frames : accepted pbDecode (decodes a) = stores a ++ (parserOf c).pc.inHand
  count : (parserOf c).rs485FramesReceived + (parserOf c).pc.uncounted =
    UInt32.ofNat (stores a).length

theorem decodes_snoc (a : List (Atom User.Sect User.Act)) (x : Atom User.Sect User.Act) :
    decodes (a ++ [x]) = decodes a ++ decodes [x] := List.filterMap_append

theorem stores_snoc (a : List (Atom User.Sect User.Act)) (x : Atom User.Sect User.Act) :
    stores (a ++ [x]) = stores a ++ stores [x] := List.filterMap_append

/-- nothing that a reader does concerns the parser thread -/
theorem ParserOk.other {x : Atom User.Sect User.Act} (h : ParserOk pbDecode a c)
    (hd : decodes [x] = []) (hs : stores [x] = []) (hsh : c'.shared = c.shared)
    (hp : parserOf c' = parserOf c) : ParserOk pbDecode (a ++ [x]) c' := by
  obtain ⟨h1, h2, h3⟩ := h
  constructor
  · rw [hsh, stores_snoc, hs, List.append_nil, h1]
  · rw [decodes_snoc, stores_snoc, hd, hs, List.append_nil, List.append_nil, hp, h2]
  · rw [hp, stores_snoc, hs, List.append_nil, h3]

theorem ParserOk.store {frame : MasterFrame} (h : ParserOk pbDecode a c)
    (hpc : (parserOf c).pc = .decoded frame) :
    ParserOk pbDecode (a ++ [.sect .parser frame])
      (c.set .parser (storePayload frame c.shared, { parserOf c with pc := .stored })) := by
  obtain ⟨h1, h2, h3⟩ := h
  have hs : stores (a ++ [.sect .parser frame]) = stores a ++ [frame] := stores_snoc a _
  have hd : decodes (a ++ [.sect .parser frame]) = decodes a := by
    rw [decodes_snoc]
    exact List.append_nil _
  rw [hpc] at h2 h3
  have hcount : (parserOf c).rs485FramesReceived = UInt32.ofNat (stores a).length := by
    rw [← h3]
    exact (UInt32.add_zero _).symm
  constructor
  · rw [hs, storeAll_snoc, ← h1]
    rfl
  · rw [hd, hs, h2]
    exact (List.append_nil _).symm
  · rw [hs, List.length_append, List.length_singleton, UInt32.ofNat_add, ← hcount]
    rfl

theorem ParserOk.act {x : ParserAct} {p : ParserThread} (h : ParserOk pbDecode a c)
    (hx : (parserOf c).act pbDecode x = some p) :
    ParserOk pbDecode (a ++ [.priv .parser x]) (c.setOwn .parser p) := by
  obtain ⟨h1, h2, h3⟩ := h
  have hs : stores (a ++ [.priv .parser x]) = stores a := by
    rw [stores_snoc]
    exact List.append_nil _
  cases x with
  | decode b =>
    have hd : decodes (a ++ [.priv .parser (.decode b)]) = decodes a ++ [b] := decodes_snoc a _
    simp only [ParserThread.act] at hx
    split at hx
    · rename_i hpc
      rw [hpc] at h2
      have hacc : accepted pbDecode (decodes a) = stores a := h2.trans (List.append_nil _)
      split at hx
      · rename_i hb
        obtain rfl := Option.some.inj hx
        refine ⟨h1.trans (by rw [hs]), ?_, by rw [hs]; exact h3⟩
        have hin : (parserOf (c.setOwn .parser (parserOf c))).pc.inHand = [] := by
          show (parserOf c).pc.inHand = []
          rw [hpc]
          rfl
        rw [hd, accepted_snoc, hb, hs, hacc, hin]
        rfl
      · rename_i f hb
        obtain rfl := Option.some.inj hx
        refine ⟨h1.trans (by rw [hs]), ?_, ?_⟩
        · rw [hd, accepted_snoc, hb, hs, hacc]
          rfl
        · rw [hs, ← h3, hpc]
          rfl
    · cases hx
  | count =>
    have hd : decodes (a ++ [.priv .parser .count]) = decodes a := by
      rw [decodes_snoc]
      exact List.append_nil _
    simp only [ParserThread.act] at hx
    split at hx
    · rename_i hpc
      obtain rfl := Option.some.inj hx
      rw [hpc] at h2 h3
      refine ⟨h1.trans (by rw [hs]), by rw [hd, hs, h2]; rfl, ?_⟩
      rw [hs, ← h3]
      exact UInt32.add_zero _
    · cases hx

/-- a copy holds the store as it was at the reader's last section -/
def CopyOk (r : ReaderId) (a : List (Atom User.Sect User.Act)) (c : St MasterData User.Local) :
    Prop :=
  (readerOf r c).copied = true → ∃ a₁ a₂, a = a₁ ++ .sect (.reader r) () :: a₂ ∧
    (∀ x ∈ a₂, ¬ Atom.IsCopy r x) ∧ (readerOf r c).d = storeAll (stores a₁)

theorem CopyOk.other {r : ReaderId} {x : Atom User.Sect User.Act} (h : CopyOk r a c)
    (hx : ¬ Atom.IsCopy r x) (hr : readerOf r c' = readerOf r c) : CopyOk r (a ++ [x]) c' := by
  intro hc
  rw [hr] at hc ⊢
  obtain ⟨a₁, a₂, rfl, h2, h3⟩ := h hc
  refine ⟨a₁, a₂ ++ [x], by rw [List.append_assoc, List.cons_append], ?_, h3⟩
  intro y hy
  rcases List.mem_append.mp hy with hy | hy
  · exact h2 y hy
  · rw [List.mem_singleton.mp hy]
    exact hx

theorem atomic_inv {x : Atom User.Sect User.Act} (hp : ParserOk pbDecode a c)
    (hr : ∀ r, CopyOk r a c) (h : atomicStep (dataMutex pbDecode S) c x = some c') :
    ParserOk pbDecode (a ++ [x]) c' ∧ ∀ r, CopyOk r (a ++ [x]) c' := by
  cases x with
  | sect u k =>
    cases u with
    | parser =>
      obtain ⟨hpc, rfl⟩ := atomic_store h
      refine ⟨hp.store hpc, fun r => (hr r).other id ?_⟩
      exact own_set_of_ne c (by simp) _
    | reader r =>
      obtain rfl := atomic_copy h
      refine ⟨hp.other rfl rfl rfl (own_set_of_ne c (by simp) _), fun r' => ?_⟩
      by_cases hrr : r = r'
      · obtain rfl := hrr
        intro _
        have hown : readerOf r (c.set (.reader r) (c.shared, { d := c.shared, copied := true })) =
            { d := c.shared, copied := true } := Function.update_self _ _ _
        rw [hown]
        exact ⟨a, [], rfl, fun y hy => (List.not_mem_nil hy).elim, hp.data⟩
      · refine (hr r').other hrr (own_set_of_ne c ?_ _)
        simpa using Ne.symm hrr
  | priv u k =>
    cases u with
    | parser =>
      obtain ⟨p, hact, rfl⟩ := atomic_priv h
      refine ⟨hp.act hact, fun r => (hr r).other id ?_⟩
      exact own_setOwn_of_ne c (by simp) _
    | reader r =>
      obtain ⟨d, hagain, rfl⟩ := atomic_priv h
      refine ⟨hp.other rfl rfl rfl (own_setOwn_of_ne c (by simp) _), fun r' => ?_⟩
      by_cases hrr : r = r'
      · obtain rfl := hrr
        intro hc
        have hd : (readerOf r c).again = some d := hagain
        have hown : readerOf r (c.setOwn (.reader r) d) = d := Function.update_self _ _ _
        unfold Reader.again at hd
        split at hd
        · obtain rfl := Option.some.inj hd
          rw [hown] at hc
          cases hc
        · cases hd
      · refine (hr r').other id (own_setOwn_of_ne c ?_ _)
        simpa using Ne.symm hrr

theorem atomic_run (h : run (atomicStep (dataMutex pbDecode S)) Held.start.st a = some c) :
    ParserOk pbDecode a c ∧ ∀ r, CopyOk r a c := by
  refine hist_run (I := fun a c => ParserOk pbDecode a c ∧ ∀ r, CopyOk r a c) ?_
    (fun _ _ _ _ hI hx => atomic_inv hI.1 hI.2 hx) h
  exact ⟨⟨rfl, rfl, rfl⟩, fun r hc => by cases hc⟩

variable {l : List (Lock.Ev User.Sect User.Act)} {s : Held MasterData User.Local}

/-- **No copy of the store is torn**: outside its critical section a reader that has its copy has
the latest payloads of the frames whose section came before its own, and `on_frame` had decoded at
most one more by then. -/
theorem copied_refines (h : run (step (dataMutex pbDecode S)) Held.start l = some s)
    {r : ReaderId} (hin : ¬ s.Inside (.reader r)) (hc : (readerOf r s.st).copied = true) :
    ∃ a₁ a₂, order l = a₁ ++ .sect (.reader r) () :: a₂ ∧ (∀ x ∈ a₂, ¬ Atom.IsCopy r x) ∧
      (readerOf r s.st).d.Refines (Latest.of (stores a₁)) ∧
      ∃ f : Option MasterFrame, accepted pbDecode (decodes a₁) = stores a₁ ++ f.toList := by
  have hrun := finish_run h
  have hown : readerOf r s.finish = readerOf r s.st := finish_own hin
  obtain ⟨a₁, a₂, hl, hlast, hd⟩ := (atomic_run hrun).2 r (by rw [hown]; exact hc)
  refine ⟨a₁, a₂, hl, hlast, ?_, ?_⟩
  · rw [← hown, hd]
    exact storeAll_refines _
  · rw [hl] at hrun
    obtain ⟨c, hc₁, _⟩ := run_append_some.mp hrun
    rw [(atomic_run hc₁).1.frames]
    cases (parserOf c).pc with
    | decoded f => exact ⟨some f, rfl⟩
    | idle => exact ⟨none, rfl⟩
    | stored => exact ⟨none, rfl⟩

/-- the periodic thread copies while `on_frame` decodes, which then waits for the mutex -/
def copyThenStore : List (Lock.Ev User.Sect User.Act) :=
  .enter (.reader .periodic) () :: .op :: .priv .parser (.decode statusRunningBytes) ::
    List.replicate 10 .op ++
    [.leave,
      .enter .parser
        { whichPayload := masterStatusTag, payload := { masterStatus := { state := 3 } } },
      .op]

theorem copied_refines_copyThenStore :
    (run (step (dataMutex sampleDecode .statements)) Held.start copyThenStore).isSome ∧
      ∀ s ∈ run (step (dataMutex sampleDecode .statements)) Held.start copyThenStore,
        ∃ a₁ a₂, order copyThenStore = a₁ ++ .sect (.reader .periodic) () :: a₂ ∧
          (∀ x ∈ a₂, ¬ Atom.IsCopy .periodic x) ∧
          (readerOf .periodic s.st).d.Refines (Latest.of (stores a₁)) ∧
          ∃ f : Option MasterFrame,
            accepted sampleDecode (decodes a₁) = stores a₁ ++ f.toList := by
  refine ⟨rfl, fun s hs => copied_refines hs ?_ ?_⟩
  · have hh : (run (step (dataMutex sampleDecode .statements)) Held.start copyThenStore).map
        (fun s => s.holder.map Sigma.fst) = some (some .parser) := rfl
    rw [Option.mem_def.mp hs, Option.map_some, Option.some.injEq] at hh
    rintro ⟨p, hp, hr⟩
    rw [Option.mem_def.mp hp, Option.map_some, hr] at hh
    cases hh
  · have hc : (run (step (dataMutex sampleDecode .statements)) Held.start copyThenStore).map
        (fun s => (readerOf .periodic s.st).copied) = some true := rfl
    rw [Option.mem_def.mp hs, Option.map_some, Option.some.injEq] at hc
    exact hc

/-- **Between two frames, with the mutex free, the store and the counter are those of `onFrame`**
applied to the byte strings one at a time. -/
theorem at_rest (h : run (step (dataMutex pbDecode S)) Held.start l = some s)
    (hfree : s.holder = none) (hidle : (parserOf s.st).pc = .idle) :
    ({ data := s.st.shared, rs485FramesReceived := (parserOf s.st).rs485FramesReceived } : Rs485) =
      (decodes (order l)).foldl (fun r b => onFrame pbDecode b r) {} := by
  obtain ⟨hdata, hframes, hcount⟩ := (atomic_run (finish_run h)).1
  rw [finish_none hfree] at hdata hframes hcount
  rw [hidle] at hframes hcount
  have hacc : accepted pbDecode (decodes (order l)) = stores (order l) :=
    hframes.trans (List.append_nil _)
  rw [onFrame_foldl, hacc, ← hdata, ← hcount]
  exact congrArg (Rs485.mk s.st.shared) (UInt32.add_zero _).symm

end

/-- `on_frame` goes on to its end -/
def copyThenCount : List (Lock.Ev User.Sect User.Act) :=
  copyThenStore ++ [.op, .op, .leave, .priv .parser .count]

theorem at_rest_copyThenCount :
    (run (step (dataMutex sampleDecode .statements)) Held.start copyThenCount).isSome ∧
      ∀ s ∈ run (step (dataMutex sampleDecode .statements)) Held.start copyThenCount,
        ({ data := s.st.shared, rs485FramesReceived := (parserOf s.st).rs485FramesReceived } :
            Rs485) =
          (decodes (order copyThenCount)).foldl (fun r b => onFrame sampleDecode b r) {} := by
  refine ⟨rfl, fun s hs => at_rest hs ?_ ?_⟩
  · have hh : (run (step (dataMutex sampleDecode .statements)) Held.start copyThenCount).map
        (fun s => s.holder.isNone) = some true := rfl
    rw [Option.mem_def.mp hs, Option.map_some, Option.some.injEq] at hh
    exact Option.isNone_iff_eq_none.mp hh
  · have hc : (run (step (dataMutex sampleDecode .statements)) Held.start copyThenCount).map
        (fun s => (parserOf s.st).pc) = some .idle := rfl
    rw [Option.mem_def.mp hs, Option.map_some, Option.some.injEq] at hc
    exact hc

end CCU
