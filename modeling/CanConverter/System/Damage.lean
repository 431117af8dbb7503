import CanConverter.Rs485.Damage
import CanConverter.System.Broadcast

/-!
# The unit after a disturbance

Whatever bytes were on the RS485 line, intact frames put the unit right again: what damaged frames
have left in the store is overwritten, kind by kind, and no pass whose snapshot comes later reads it.

* `Latest.Le`           what one history tells, another tells too;
* `FromSnapshot.after`  the snapshot of a pass, when one was taken after a point of the run;
* `damage_forgotten`    the store and the passes after a disturbance.
-/

namespace CCU
open Runs

/-- `l'` has every payload that `l` has -/
structure Latest.Le (l l' : Latest) : Prop where
  measurements : ∀ v ∈ l.measurements, l'.measurements = some v
  status : ∀ v ∈ l.status, l'.status = some v
  protiumValues : ∀ v ∈ l.protiumValues, l'.protiumValues = some v
  protiumOperatingState : ∀ v ∈ l.protiumOperatingState, l'.protiumOperatingState = some v
  faults : ∀ v ∈ l.faults, l'.faults = some v

theorem lastOf_append_some {α β : Type} {p : β → Option α} {l' : List β} {v : α}
    (h : v ∈ Latest.lastOf p l') (l : List β) : Latest.lastOf p (l ++ l') = some v := by
  rw [Latest.lastOf_append, Option.mem_def.mp h, Option.some_or]

/-- the latest payloads do not depend on what came before them -/
theorem Latest.le_of_append (fs fs' : List MasterFrame) :
    (Latest.of fs').Le (Latest.of (fs ++ fs')) :=
  ⟨fun _ h => lastOf_append_some h fs, fun _ h => lastOf_append_some h fs,
    fun _ h => lastOf_append_some h fs, fun _ h => lastOf_append_some h fs,
    fun _ h => lastOf_append_some h fs⟩

section
variable {pbDecode : List UInt8 → Option MasterFrame} {cd : Candef}

theorem received_append (evs evs' : List Ev) :
    received (evs ++ evs') = received evs ++ received evs' := List.filterMap_append

/-- with a snapshot after `evs`, the last snapshot is one of these -/
theorem FromSnapshot.after {evs post : List Ev} {acts : List Act}
    (h : FromSnapshot pbDecode (evs ++ post) acts) (hpost : .snapshot ∈ post) :
    ∃ post₁ post₂, post = post₁ ++ .snapshot :: post₂ ∧ ∀ c, .send c ∈ acts →
      c.BuiltFrom (Latest.of (accepted pbDecode (received (evs ++ post₁)))) := by
  obtain ⟨pre, rest, heq, hrest, hc⟩ := h
  rcases List.append_eq_append_iff.mp heq with ⟨post₁, rfl, h⟩ | ⟨mid, rfl, h⟩
  · exact ⟨post₁, rest, h, hc⟩
  · cases mid with
    | nil =>
      refine ⟨[], rest, h.symm, ?_⟩
      rw [List.append_nil, List.append_nil]
      exact hc
    | cons e mid =>
      obtain ⟨_, rfl⟩ := List.cons.inj h
      exact absurd (List.mem_append_right mid hpost) hrest

variable {σ : Type} {P : Cobs.Parser σ} {s : Sys}

/-- **Damage is forgotten.**  Whatever bytes `g` were on the line before, let the intact frames `fs`
arrive and the unit take in what `on_frame` gets.  Every payload kind that occurs in `fs` after its
first frame is then in the store with its last value, and every pass with a later snapshot sends
each such kind from these frames or from what was received since. -/
theorem damage_forgotten (hP : P.Standard) (serialize : MasterFrame → List UInt8)
    {fs : List MasterFrame} (hfs : ∀ f ∈ fs, pbDecode (serialize f) = some f) (g : List UInt8)
    (rx : List RxEv)
    (hrx : rx.flatMap RxEv.bytes = g ++ fs.flatMap fun f => sendFrame (cobsEncode (serialize f)))
    {evs : List Ev} (hevs : received evs = deliveries P rx)
    (hs : Runs.run (Sys.step pbDecode cd) {} evs = some s) :
    (Latest.of fs.tail).Le s.rs485.data.latest ∧
    ∀ post t, Runs.run (Sys.step pbDecode cd) s post = some t → .snapshot ∈ post →
      ∀ acts, t.periodic.pc = .running acts → acts ≠ [] →
        ∃ post₁ post₂ l, post = post₁ ++ .snapshot :: post₂ ∧
          (Latest.of (fs.tail ++ accepted pbDecode (received post₁))).Le l ∧
          ∀ c, .send c ∈ acts → c.BuiltFrom l := by
  have hmap : fs.flatMap (fun f => sendFrame (cobsEncode (serialize f))) =
      (fs.map serialize).flatMap fun p => sendFrame (cobsEncode p) := by
    rw [List.flatMap_map]
  rw [hmap] at hrx
  obtain ⟨bad, _, hbad⟩ := deliveries_after hP g (fs.map serialize) rx hrx
  have hacc : accepted pbDecode (received evs) = accepted pbDecode bad ++ fs.tail := by
    rw [hevs, hbad, accepted_append, ← List.map_tail,
      accepted_map pbDecode fun f hf => hfs f (List.mem_of_mem_tail hf)]
  constructor
  · rw [(Tracks.run hs).store.latest_eq, hacc]
    exact Latest.le_of_append _ _
  · intro post t ht hpost acts hacts hne
    have hrun : Runs.run (Sys.step pbDecode cd) {} (evs ++ post) = some t :=
      run_append_some.mpr ⟨s, hs, ht⟩
    obtain ⟨post₁, post₂, heq, hc⟩ :=
      ((Tracks.run hrun).pending acts hacts hne).after hpost
    refine ⟨post₁, post₂, _, heq, ?_, hc⟩
    rw [received_append, accepted_append, hacc, List.append_assoc]
    exact Latest.le_of_append _ _

end

def statusRunning : MasterFrame :=
  { whichPayload := masterStatusTag, payload := { masterStatus := { state := 3 } } }

/-- two status frames after a byte of something else -/
def strayByteRun : List Ev :=
  [.received [9], .received statusRunningBytes, .received statusRunningBytes]

theorem damage_forgotten_strayByteRun :
    ∃ s, Runs.run (Sys.step sampleDecode Candef.bytewise) {} strayByteRun = some s ∧
      s.rs485.data.latest.status = some { state := 3 } := by
  have hrx : [RxEv.packet [2, 9, 0, 5, 0x22, 0x02, 0x10], .timeout, .packet [0x03, 0, 0, 5, 0x22],
      .packet [0x02, 0x10, 0x03, 0, 0]].flatMap RxEv.bytes = [2, 9, 0] ++
        [statusRunning, statusRunning].flatMap fun _ => sendFrame (cobsEncode statusRunningBytes) := by
    decide
  have hrun : ∃ s, Runs.run (Sys.step sampleDecode Candef.bytewise) {} strayByteRun = some s :=
    ⟨_, rfl⟩
  obtain ⟨s, hrun⟩ := hrun
  have h := damage_forgotten Cobs.byteFed_standard (fun _ => statusRunningBytes) (by decide)
    [2, 9, 0] _ hrx (by decide) hrun
  exact ⟨s, hrun, h.1.status _ rfl⟩

end CCU
