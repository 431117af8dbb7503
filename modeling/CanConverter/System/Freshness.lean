import CanConverter.Lib.History
import CanConverter.System.Latency
import CanConverter.System.Provenance

/-!
# How fresh the traffic is

In a stretch of a paced run without DFU and bus-off every sender whose payload has been received
brings a frame of its own to `can_send`, built from the latest payload of a moment in the stretch:
after as many wakeups as its group takes from one attempt to the next, and ten for the queue.

* `Group.left`   the passes before the next attempt of a group;
* `Due`          what becomes of the attempt: the pass is to come, the call is to come, the frame is
                 queued, the frame is taken;
* `Due.step`     no step loses it or lets it fall behind;
* `fresh`        so the frame is taken in time.
-/

namespace CCU
open Runs

/-! ## the groups of the schedule -/

inductive Group where
  | hz100 | hz10 | hz1 | unassigned
deriving DecidableEq

namespace Group

def calls (d : MasterData) : Group → List Call
  | .hz100 => group100Hz d
  | .hz10 => group10Hz d
  | .hz1 => group1Hz d
  | .unassigned => groupUnassigned d

/-- the passes from one attempt to the next -/
def passes : Group → Nat
  | .hz100 => 1
  | .hz10 => 10
  | .hz1 => 100
  | .unassigned => 1000

/-- the passes without the group that come before the next one with it -/
def left (c : Counters) : Group → Nat
  | .hz100 => 0
  | .hz10 => 9 - c.cnt100ms
  | .hz1 => 99 - c.cnt1000ms
  | .unassigned => 999 - (c.cnt1s + 100 * c.cntUnassign)

section
variable {c : Counters} {d d' : MasterData} {g : Group} {k : Call}

theorem left_lt (c : Counters) (g : Group) : g.left c < g.passes := by
  cases g with
  | hz100 => exact Nat.zero_lt_one
  | hz10 => exact Nat.lt_succ_of_le (Nat.sub_le 9 _)
  | hz1 => exact Nat.lt_succ_of_le (Nat.sub_le 99 _)
  | unassigned => exact Nat.lt_succ_of_le (Nat.sub_le 999 _)

/-- a pass without the group brings it nearer -/
theorem left_next (hc : c.Ok) (h : g.left c ≠ 0) : g.left c.next + 1 = g.left c := by
  obtain ⟨h1, h2, h3, h4⟩ := hc
  unfold left Counters.next roll at *
  cases g with
  | hz100 => exact absurd rfl h
  | hz10 =>
    simp only at h ⊢
    rw [if_neg (by omega)]
    omega
  | hz1 =>
    simp only at h ⊢
    rw [if_neg (by omega)]
    omega
  | unassigned =>
    simp only at h ⊢
    by_cases h100 : c.cnt1s + 1 = 100
    · rw [if_pos h100, if_pos h100, if_neg (by omega)]
      omega
    · rw [if_neg h100, if_neg h100]
      omega

/-- the pass with the group makes its calls -/
theorem mem_loopActs (hc : c.Ok) (h : g.left c = 0) (hk : k ∈ g.calls d) :
    .send k ∈ loopActs d c := by
  obtain ⟨h1, h2, h3, h4⟩ := hc
  have hsend : Act.send k ∈ sends (g.calls d) := send_mem_sends.mpr hk
  unfold left at h
  unfold loopActs
  simp only [List.mem_append]
  cases g with
  | hz100 => exact .inl (.inl (.inl hsend))
  | hz10 =>
    refine .inl (.inl (.inr ?_))
    rwa [if_pos (by simp only at h; omega)]
  | hz1 =>
    refine .inl (.inr ?_)
    rwa [if_pos (by simp only at h; omega)]
  | unassigned =>
    simp only at h
    refine .inr ?_
    rw [if_pos (by omega), if_pos (by omega)]
    exact List.mem_append_left _ hsend

/-- a sender that is called once is called in every later pass with its group -/
theorem calls_mono (h : d.FlagsLe d') (hk : k ∈ g.calls d) :
    ∃ k' ∈ g.calls d', k'.field = k.field := by
  obtain ⟨h1, h2, h3, h4, h5⟩ := h
  have hite : ∀ {b b' : Bool} {l l' : List Call}, k ∈ (if b then l else []) →
      (b = true → b' = true) → l.map Call.field = l'.map Call.field →
      ∃ k' ∈ (if b' then l' else []), k'.field = k.field := by
    intro b b' l l' hk hb hl
    obtain ⟨hb1, hk⟩ := List.mem_ite_nil_right.mp hk
    have hf : k.field ∈ l'.map Call.field := hl ▸ List.mem_map_of_mem hk
    rw [if_pos (hb hb1)]
    exact List.mem_map.mp hf
  have happ : ∀ {l₁ l₂ l₁' l₂' : List Call}, k ∈ l₁ ++ l₂ →
      (k ∈ l₁ → ∃ k' ∈ l₁', k'.field = k.field) → (k ∈ l₂ → ∃ k' ∈ l₂', k'.field = k.field) →
      ∃ k' ∈ l₁' ++ l₂', k'.field = k.field := by
    intro l₁ l₂ l₁' l₂' hk hl hr
    rcases List.mem_append.mp hk with hk | hk
    · obtain ⟨k', hk', hf⟩ := hl hk
      exact ⟨k', List.mem_append_left _ hk', hf⟩
    · obtain ⟨k', hk', hf⟩ := hr hk
      exact ⟨k', List.mem_append_right _ hk', hf⟩
  cases g with
  | hz100 =>
    have hk : k ∈ group100Hz d := hk
    unfold group100Hz at hk
    exact happ hk (fun hk => hite hk h2 rfl) fun hk => hite hk h5 rfl
  | hz10 =>
    have hk : k ∈ group10Hz d := hk
    unfold group10Hz at hk
    exact hite hk h1 rfl
  | hz1 =>
    have hk : k ∈ group1Hz d := hk
    unfold group1Hz at hk
    exact happ hk (fun hk => happ hk (fun hk => hite hk h1 rfl) fun hk => hite hk h4 rfl)
      fun hk => hite hk h3 rfl
  | unassigned =>
    have hk : k ∈ groupUnassigned d := hk
    unfold groupUnassigned at hk
    exact hite hk h1 rfl

end

end Group

/-! ## the frames the TX thread has taken -/

namespace TxThread
variable {φ : Type} {s t : TxThread φ}

/-- the frames taken from the queue, the last one perhaps still on its way to `can_send` -/
def taken (s : TxThread φ) : List φ := s.handed ++ s.pc.hand.toList

theorem taken_get {frame : φ} (h : s.step (.get frame) = some t) :
    t.taken = s.taken ++ [frame] := by
  obtain ⟨hp, rfl⟩ := step_get h
  unfold taken
  rw [hp]
  show s.handed ++ [frame] = s.handed ++ [] ++ [frame]
  rw [List.append_nil]

theorem taken_step {e : TxEv φ} (he : ∀ frame, e ≠ .get frame) (h : s.step e = some t) :
    t.taken = s.taken := by
  unfold taken
  cases e with
  | get frame => exact absurd rfl (he frame)
  | canSend ret =>
    obtain ⟨frame, hp, ⟨_, rfl⟩ | ⟨_, rfl⟩⟩ := step_canSend h
    · rw [hp]
      exact List.append_nil _
    · rw [hp]
      exact List.append_nil _
  | semTake =>
    obtain ⟨_, hp, _, rfl⟩ := step_semTake h
    rw [hp]
    rfl
  | semTimeout =>
    obtain ⟨_, hp, _, rfl⟩ := step_semTimeout h
    rw [hp]
    rfl
  | testResult =>
    obtain ⟨_, hp, ⟨_, rfl⟩ | ⟨_, rfl⟩⟩ := step_testResult h
    · rw [hp]
      rfl
    · rw [hp]
      rfl
  | logError =>
    obtain ⟨_, hp, rfl⟩ := step_logError h
    rw [hp]
    rfl
  | countOk =>
    obtain ⟨_, hp, rfl⟩ := step_countOk h
    rw [hp]
    rfl
  | callbackWrite n error =>
    obtain ⟨_, rfl⟩ := step_callbackWrite h
    rfl
  | callbackGive n error =>
    obtain ⟨_, rfl⟩ := step_callbackGive h
    rfl

end TxThread
/-! ## what becomes of an attempt -/

/-- the sender of `field` builds `f` in a pass that takes its snapshot in `l`, after `evs` -/
structure Made (pbDecode : List UInt8 → Option MasterFrame) (cd : Candef) (evs l : List Ev)
    (field : Field) (c : Call) (f : CanFrame) : Prop where
  field : c.field = field
  snapshot : ∃ pre post, l = pre ++ .snapshot :: post ∧
    c.BuiltFrom (Latest.of (accepted pbDecode (received (evs ++ pre))))
  frame : c.frame cd = some f

section
variable (pbDecode : List UInt8 → Option MasterFrame) (cd : Candef) (evs : List Ev) (g : Group)
  (field : Field) (n : Nat)

/-- the attempt of the group after the events `l`; `n` frames had been taken before them -/
inductive Due (l : List Ev) (ages : List Nat) (s : Sys) : Prop where
  | waiting (h : l.count .wake +
      (g.left s.periodic.cnt + if s.periodic.pc = .awake then 0 else 1) ≤ g.passes)
  | pending (c : Call) (f : CanFrame) (hm : Made pbDecode cd evs l field c f)
      (hc : c ∈ s.periodic.pc.calls) (h : l.count .wake ≤ g.passes)
  | queued (c : Call) (f : CanFrame) (hm : Made pbDecode cd evs l field c f) (i a : Nat)
      (hi : s.canTx.canTxMsgq.items[i]? = some f) (ha : ages[i]? = some a)
      (h : l.count .wake ≤ a + g.passes)
  | taken (c : Call) (f : CanFrame) (hm : Made pbDecode cd evs l field c f)
      (h : f ∈ s.txThread.taken.drop n)

/-- the stretch so far -/
structure Stretch (l : List Ev) (ages : List Nat) (m : Pace) (s : Sys) : Prop where
  aging : Aging ages m s
  tracks : Tracks pbDecode (evs ++ l) s
  quiet : s.canDfuIsActive = false
  offered : ∃ k ∈ g.calls s.rs485.data, k.field = field
  le : n ≤ s.txThread.taken.length
  due : Due pbDecode cd evs g field n l ages s

end

section
variable {pbDecode : List UInt8 → Option MasterFrame} {cd : Candef} {evs l : List Ev} {g : Group}
  {field : Field} {n : Nat} {ages : List Nat} {m : Pace} {s t : Sys} {e : Ev} {c : Call}
  {f : CanFrame}

theorem Made.snoc (h : Made pbDecode cd evs l field c f) (e : Ev) :
    Made pbDecode cd evs (l ++ [e]) field c f := by
  obtain ⟨hf, ⟨pre, post, rfl, hc⟩, hfr⟩ := h
  exact ⟨hf, ⟨pre, post ++ [e], by rw [List.append_assoc, List.cons_append], hc⟩, hfr⟩

theorem count_wake (he : e ≠ .wake) : (l ++ [e]).count .wake = l.count .wake := by
  rw [List.count_append, List.count_singleton, if_neg (by simpa using he), Nat.add_zero]

theorem count_wake_snoc (l : List Ev) : (l ++ [Ev.wake]).count .wake = l.count .wake + 1 := by
  rw [List.count_append, List.count_singleton_self]

/-- what is taken stays taken -/
theorem taken_grows (h : s.step pbDecode cd e = some t) :
    s.txThread.taken <+: t.txThread.taken := by
  by_cases he : e.thread = .tx
  · cases e with
    | tx e =>
      by_cases hg : ∃ frame, e = .get frame
      · obtain ⟨frame, rfl⟩ := hg
        obtain ⟨_, u, _, hu, rfl⟩ := Sys.step_txGet h
        rw [show u.taken = _ from TxThread.taken_get hu]
        exact List.prefix_append _ _
      · obtain ⟨u, hu, rfl⟩ := Sys.step_tx (fun f hf => hg ⟨f, hf⟩) h
        have hsame : u.taken = s.txThread.taken :=
          TxThread.taken_step (fun f hf => hg ⟨f, hf⟩) hu
        exact ⟨[], (List.append_nil _).trans hsame.symm⟩
    | _ => cases he
  · have hsame := (Sys.step_kept h).txThread he
    exact ⟨[], (List.append_nil _).trans (congrArg TxThread.taken hsame.symm)⟩

/-- an event that removes no frame from the queue -/
def Ev.Keeps : Ev → Prop
  | .busOff | .tx (.get _) => False
  | _ => True

/-- what is queued stays in its place -/
theorem items_getElem? (he : e.Keeps) (h : s.step pbDecode cd e = some t) {i : Nat}
    (hi : s.canTx.canTxMsgq.items[i]? = some f) : t.canTx.canTxMsgq.items[i]? = some f := by
  have hput : ∀ c : Call, (c.exec cd s.canTx).canTxMsgq.items[i]? = some f := by
    intro c
    obtain ⟨hlt, _⟩ := List.getElem?_eq_some_iff.mp hi
    rw [Call.exec_items, List.getElem?_append_left hlt]
    exact hi
  cases e with
  | busOff => exact he.elim
  | act =>
    obtain ⟨a, _, _, rfl⟩ := Sys.step_act h
    cases a with
    | send c => exact hput c
    | _ => exact hi
  | buttonSend =>
    obtain ⟨c, _, _, rfl⟩ := Sys.step_buttonSend h
    exact hput c
  | tx e =>
    have hg : ∀ frame, e ≠ .get frame := by
      rintro frame rfl
      exact he.elim
    obtain ⟨_, _, rfl⟩ := Sys.step_tx hg h
    exact hi
  | received b =>
    rw [Sys.step_received h]
    exact hi
  | wake =>
    obtain ⟨_, ⟨_, rfl⟩ | ⟨_, rfl⟩⟩ := Sys.step_wake h
    · exact hi
    · exact hi
  | snapshot =>
    obtain ⟨_, rfl⟩ := Sys.step_snapshot h
    exact hi
  | sleep =>
    obtain ⟨_, rfl⟩ := Sys.step_sleep h
    exact hi
  | press =>
    obtain ⟨_, rfl⟩ := Sys.step_press h
    exact hi
  | buttonDone =>
    obtain ⟨_, rfl⟩ := Sys.step_buttonDone h
    exact hi
  | dfuStart =>
    obtain ⟨_, rfl⟩ := Sys.step_dfuStart h
    exact hi
  | dfuEnd =>
    obtain ⟨_, rfl⟩ := Sys.step_dfuEnd h
    exact hi

/-- its age follows the wakeups -/
theorem agesUpd_getElem? (he : e.Keeps) (p q : Pace × Sys) {i a : Nat} (ha : ages[i]? = some a) :
    (agesUpd cd ages p e q)[i]? = some (if e = .wake then a + 1 else a) := by
  have hput : ∀ o : Option CanFrame, (o.elim ages fun _ => ages ++ [0])[i]? = some a := by
    intro o
    cases o with
    | none => exact ha
    | some f =>
      obtain ⟨hlt, _⟩ := List.getElem?_eq_some_iff.mp ha
      exact (List.getElem?_append_left hlt).trans ha
  cases e with
  | busOff => exact he.elim
  | wake =>
    show (ages.map (· + 1))[i]? = some (a + 1)
    rw [List.getElem?_map, ha]
    rfl
  | tx e =>
    cases e with
    | get frame => exact he.elim
    | _ => exact ha
  | act | buttonSend => exact hput _
  | _ => exact ha

/-! ## a step of the stretch -/

theorem ne_wake (he : e.thread ≠ .periodic) : e ≠ .wake := by
  rintro rfl
  exact he rfl

/-- **the attempt is to come** -/
theorem Due.waiting_step (hfit : ∀ c : Call, (c.frame cd).isSome = true)
    (ht : Tracks pbDecode (evs ++ l) s) (hq : s.canDfuIsActive = false)
    (ho : ∃ k ∈ g.calls s.rs485.data, k.field = field)
    (hw : l.count .wake + (g.left s.periodic.cnt + if s.periodic.pc = .awake then 0 else 1) ≤
      g.passes) (h : s.step pbDecode cd e = some t) :
    Due pbDecode cd evs g field n (l ++ [e]) ages t := by
  by_cases he : e.thread = .periodic
  · cases e with
    | wake =>
      obtain ⟨hp, ⟨hd, _⟩ | ⟨_, rfl⟩⟩ := Sys.step_wake h
      · rw [hq] at hd
        cases hd
      · refine .waiting ?_
        rw [hp] at hw
        rw [count_wake_snoc]
        show l.count .wake + 1 + (g.left s.periodic.cnt + 0) ≤ g.passes
        have hw : l.count .wake + (g.left s.periodic.cnt + 1) ≤ g.passes := hw
        omega
    | snapshot =>
      obtain ⟨hp, ht'⟩ := Sys.step_snapshot h
      rw [hp, if_pos rfl] at hw
      have hcnt : t.periodic.cnt = s.periodic.cnt.next := by
        rw [ht']
        exact (loopBody_is _ ht.cnt).cnt
      have hpc : t.periodic.pc = .running (loopActs s.rs485.data s.periodic.cnt) := by
        rw [ht']
        exact congrArg PeriodicPc.running (loopBody_is _ ht.cnt).acts
      by_cases hleft : g.left s.periodic.cnt = 0
      · -- the pass with the group
        obtain ⟨k, hk, hkf⟩ := ho
        obtain ⟨f, hf⟩ := Option.isSome_iff_exists.mp (hfit k)
        have hsend := Group.mem_loopActs ht.cnt hleft hk
        refine .pending k f ⟨hkf, ⟨l, [], rfl, ?_⟩, hf⟩ ?_ ?_
        · rw [← ht.store.latest_eq]
          exact loopActs_builtFrom hsend
        · rw [hpc]
          exact mem_calls.mpr hsend
        · rw [count_wake (by rintro ⟨⟩)]
          omega
      · have hnext := Group.left_next ht.cnt hleft
        refine .waiting ?_
        rw [count_wake (by rintro ⟨⟩), hcnt, hpc, if_neg (by rintro ⟨⟩)]
        omega
    | act =>
      obtain ⟨a, acts, hp, rfl⟩ := Sys.step_act h
      refine .waiting ?_
      rw [count_wake (by rintro ⟨⟩), Sys.cnt_setPc, Sys.doAct_cnt, Sys.pc_setPc]
      rw [hp] at hw
      exact hw
    | sleep =>
      obtain ⟨hp, rfl⟩ := Sys.step_sleep h
      refine .waiting ?_
      rw [count_wake (by rintro ⟨⟩), Sys.cnt_setPc, Sys.pc_setPc]
      rw [hp] at hw
      exact hw
    | _ => cases he
  · refine .waiting ?_
    rw [count_wake (ne_wake he), (Sys.step_kept h).periodic he]
    exact hw

/-- **the call is to come**: it finds room in the queue -/
theorem Due.pending_step (ha : Aging ages m s) (hm : Made pbDecode cd evs l field c f)
    (hc : c ∈ s.periodic.pc.calls) (hw : l.count .wake ≤ g.passes)
    (h : s.step pbDecode cd e = some t) :
    Due pbDecode cd evs g field n (l ++ [e]) (agesUpd cd ages (m, s) e (m.upd s e t, t)) t := by
  by_cases he : e.thread = .periodic
  · cases e with
    | wake =>
      rw [(Sys.step_wake h).1] at hc
      cases hc
    | snapshot =>
      rw [(Sys.step_snapshot h).1] at hc
      cases hc
    | sleep =>
      rw [(Sys.step_sleep h).1] at hc
      cases hc
    | act =>
      have hlen := ha.bounded.length_le
      obtain ⟨a, acts, hp, rfl⟩ := Sys.step_act h
      rw [hp, PeriodicPc.calls_cons, List.mem_append, Option.mem_toList] at hc
      rcases hc with hc | hc
      · -- the call itself
        obtain rfl : a = .send c := by
          cases a with
          | send k => exact congrArg Act.send (Option.some.inj hc)
          | _ => cases hc
        have hput : c.enqueued cd s.canTx = some f := by
          have hsome : (c.enqueued cd s.canTx).isSome = true := by
            refine (Call.enqueued_isSome cd c s.canTx).mpr ⟨by rw [hm.frame]; rfl, ?_⟩
            exact Nat.lt_of_le_of_lt (by omega) (show 26 < 32 by decide)
          obtain ⟨f', hf'⟩ := Option.isSome_iff_exists.mp hsome
          rw [hf', ← hm.frame, enqueued_some hf']
        have hages : agesUpd cd ages (m, s) .act (m, (s.doAct cd (.send c)).setPc (.running acts)) =
            ages ++ [0] := by
          show (Sys.putFrame? cd s .act).elim ages (fun _ => ages ++ [0]) = ages ++ [0]
          unfold Sys.putFrame?
          rw [hp]
          show (c.enqueued cd s.canTx).elim ages (fun _ => ages ++ [0]) = ages ++ [0]
          rw [hput]
          rfl
        refine .queued c f (hm.snoc _) ages.length 0 ?_ ?_ ?_
        · show (c.exec cd s.canTx).canTxMsgq.items[ages.length]? = some f
          rw [Call.exec_items, hput, ha.length]
          exact List.getElem?_concat_length
        · refine (congrArg (·[ages.length]?) hages).trans ?_
          exact List.getElem?_concat_length
        · rw [count_wake (by rintro ⟨⟩), Nat.zero_add]
          exact hw
      · refine .pending c f (hm.snoc _) hc ?_
        rw [count_wake (by rintro ⟨⟩)]
        exact hw
    | _ => cases he
  · refine .pending c f (hm.snoc e) ?_ ?_
    · rw [(Sys.step_kept h).periodic he]
      exact hc
    · rw [count_wake (ne_wake he)]
      exact hw

/-- **the frame is queued**: it stays so, or is taken -/
theorem Due.queued_step (hn : n ≤ s.txThread.taken.length)
    (hm : Made pbDecode cd evs l field c f) {i a : Nat}
    (hi : s.canTx.canTxMsgq.items[i]? = some f) (ha : ages[i]? = some a)
    (hw : l.count .wake ≤ a + g.passes) (hoff : e ≠ .busOff)
    (h : s.step pbDecode cd e = some t) :
    Due pbDecode cd evs g field n (l ++ [e]) (agesUpd cd ages (m, s) e (m.upd s e t, t)) t := by
  by_cases hk : e.Keeps
  · refine .queued c f (hm.snoc e) i _ (items_getElem? hk h hi) (agesUpd_getElem? hk _ _ ha) ?_
    by_cases he : e = .wake
    · rw [he, count_wake_snoc, if_pos rfl]
      omega
    · rw [count_wake he, if_neg he]
      exact hw
  · obtain ⟨frame, rfl⟩ : ∃ frame, e = .tx (.get frame) := by
      unfold Ev.Keeps at hk
      split at hk
      · exact absurd rfl hoff
      · exact ⟨_, rfl⟩
      · exact absurd True.intro hk
    obtain ⟨q, u, hget, hu, rfl⟩ := Sys.step_txGet h
    rw [Fifo.get_some.mp hget] at hi
    cases i with
    | zero =>
      obtain rfl : frame = f := Option.some.inj hi
      refine .taken c frame (hm.snoc _) ?_
      show frame ∈ u.taken.drop n
      rw [TxThread.taken_get hu, List.drop_append_of_le_length hn]
      exact List.mem_append_right _ (List.mem_singleton.mpr rfl)
    | succ i =>
      refine .queued c f (hm.snoc _) i a hi ?_ ?_
      · show ages.tail[i]? = some a
        rw [List.getElem?_tail]
        exact ha
      · rw [count_wake (by rintro ⟨⟩)]
        exact hw

/-- **no step loses the attempt or lets it fall behind** -/
theorem Due.step (hfit : ∀ c : Call, (c.frame cd).isSome = true)
    (hs : Stretch pbDecode cd evs g field n l ages m s) (hoff : e ≠ .busOff)
    (h : s.step pbDecode cd e = some t) :
    Due pbDecode cd evs g field n (l ++ [e]) (agesUpd cd ages (m, s) e (m.upd s e t, t)) t := by
  cases hs.due with
  | waiting hw => exact Due.waiting_step hfit hs.tracks hs.quiet hs.offered hw h
  | pending c f hm hc hw => exact Due.pending_step hs.aging hm hc hw h
  | queued c f hm i a hi ha hw => exact Due.queued_step hs.le hm hi ha hw hoff h
  | taken c f hm hf =>
    obtain ⟨more, hmore⟩ := taken_grows h
    refine .taken c f (hm.snoc e) ?_
    rw [← hmore, List.drop_append_of_le_length hs.le]
    exact List.mem_append_left more hf

/-- the events of the stretch: DFU does not start and the bus does not go off -/
def Calm (e : Ev) : Prop := e ≠ .dfuStart ∧ e ≠ .busOff

instance (e : Ev) : Decidable (Calm e) := inferInstanceAs (Decidable (_ ∧ _))

theorem Stretch.step (hfit : ∀ c : Call, (c.frame cd).isSome = true)
    (hs : Stretch pbDecode cd evs g field n l ages m s) (hG : Paced (m, s) e) (he : Calm e)
    (h : s.step pbDecode cd e = some t) :
    Stretch pbDecode cd evs g field n (l ++ [e]) (agesUpd cd ages (m, s) e (m.upd s e t, t))
      (m.upd s e t) t := by
  have htracks := hs.tracks.step h
  rw [List.append_assoc] at htracks
  refine ⟨hs.aging.step hG h, htracks, ?_, ?_, ?_, Due.step hfit hs he.2 h⟩
  · by_cases hd : e.thread = .dfu
    · cases e with
      | dfuStart => exact absurd rfl he.1
      | dfuEnd =>
        obtain ⟨_, rfl⟩ := Sys.step_dfuEnd h
        rfl
      | _ => cases hd
    · rw [(Sys.step_kept h).dfu hd]
      exact hs.quiet
  · obtain ⟨k, hk, hf⟩ := hs.offered
    obtain ⟨k', hk', hf'⟩ := Group.calls_mono (Sys.step_flags h) hk
    exact ⟨k', hk', hf'.trans hf⟩
  · exact hs.le.trans (taken_grows h).length_le

/-- the stretch begins -/
theorem Stretch.init (ha : Aging ages m s) (ht : Tracks pbDecode evs s)
    (hq : s.canDfuIsActive = false) (ho : ∃ k ∈ g.calls s.rs485.data, k.field = field) :
    Stretch pbDecode cd evs g field s.txThread.taken.length [] ages m s := by
  have hleft := Group.left_lt s.periodic.cnt g
  refine ⟨ha, by rwa [List.append_nil], hq, ho, Nat.le_refl _, .waiting ?_⟩
  rw [List.count_nil]
  split
  · omega
  · omega

theorem Stretch.run (hfit : ∀ c : Call, (c.frame cd).isSome = true) {post : List Ev} {m' : Pace}
    (hcalm : ∀ e ∈ post, Calm e) :
    ∀ {l : List Ev} {ages : List Nat} {m : Pace} {s : Sys},
      Stretch pbDecode cd evs g field n l ages m s →
      Always (watch Pace.upd (Sys.step pbDecode cd)) Paced (m, s) post →
      Runs.run (watch Pace.upd (Sys.step pbDecode cd)) (m, s) post = some (m', t) →
      ∃ ages', Stretch pbDecode cd evs g field n (l ++ post) ages' m' t := by
  induction post with
  | nil =>
    intro l ages m s hs _ h
    obtain ⟨rfl, rfl⟩ := Prod.mk.inj (Option.some.inj h)
    exact ⟨ages, by rwa [List.append_nil]⟩
  | cons e post ih =>
    intro l ages m s hs hG h
    obtain ⟨⟨m₁, s₁⟩, hstep, hrun⟩ := run_cons_some.mp h
    obtain ⟨hst, hm⟩ := watch_some.mp hstep
    have hm : m₁ = m.upd s e s₁ := hm
    have hs' := hs.step hfit hG.1 (hcalm e List.mem_cons_self) hst
    rw [← hm] at hs'
    obtain ⟨ages', h'⟩ := ih (fun e' he' => hcalm e' (List.mem_cons_of_mem e he')) hs'
      (hG.2 _ hstep) hrun
    rw [List.append_assoc] at h'
    exact ⟨ages', h'⟩

/-- **The traffic is fresh.**  In a paced run, let a stretch without DFU and bus-off begin with DFU
inactive and the payload of a sender received.  After as many wakeups as the group of the sender
takes, and ten more, the TX thread has taken a frame of that sender that was built in the stretch,
from the latest payloads of that moment. -/
theorem fresh (hfit : ∀ c : Call, (c.frame cd).isSome = true) {post : List Ev} {m' : Pace}
    (hG : Always (watch Pace.upd (Sys.step pbDecode cd)) Paced ({}, {}) (evs ++ post))
    (hs : Runs.run (watch Pace.upd (Sys.step pbDecode cd)) ({}, {}) evs = some (m, s))
    (ht : Runs.run (watch Pace.upd (Sys.step pbDecode cd)) (m, s) post = some (m', t))
    (hcalm : ∀ e ∈ post, Calm e) (hq : s.canDfuIsActive = false) (hc : c ∈ g.calls s.rs485.data)
    (hw : g.passes + 10 ≤ post.count .wake) :
    ∃ c' f', Made pbDecode cd evs post c.field c' f' ∧
      f' ∈ t.txThread.taken.drop s.txThread.taken.length := by
  obtain ⟨hG₁, hG₂⟩ := hG.append hs
  have hrun : Runs.run (Sys.step pbDecode cd) {} evs = some s := run_of_watch hs
  obtain ⟨ages, hages⟩ : ∃ ages, Runs.run (watch (agesUpd cd) (watch Pace.upd
      (Sys.step pbDecode cd))) ([], {}, {}) evs = some (ages, m, s) :=
    watch_run (p := (([], {}, {}) : List Nat × Pace × Sys)) hs
  have hinit : Stretch pbDecode cd evs g c.field s.txThread.taken.length [] ages m s :=
    Stretch.init (Aging.run hG₁ hages) (Tracks.run hrun) hq ⟨c, hc, rfl⟩
  obtain ⟨ages', h⟩ := hinit.run hfit hcalm hG₂ ht
  cases h.due with
  | waiting hwait =>
    have hle : post.count .wake ≤ g.passes := Nat.le_trans (Nat.le_add_right _ _) hwait
    omega
  | pending _ _ _ _ hle =>
    have hle : post.count .wake ≤ g.passes := hle
    omega
  | queued _ _ _ i a _ ha hle =>
    have hnine := h.aging.within.le (by decide) a (List.mem_of_getElem? ha)
    have hle : post.count .wake ≤ a + g.passes := hle
    have hnine : a ≤ 9 := hnine
    omega
  | taken c' f' hm hf => exact ⟨c', f', hm, hf⟩

theorem bytewise_frame_isSome (c : Call) : (c.frame Candef.bytewise).isSome = true := by
  cases c <;> rfl

/-- a pass that sends the state, which the TX thread takes -/
def statePass : List Ev :=
  [.wake, .snapshot, .act, .sleep, .tx (.get runningFrame), .tx (.canSend (-5))]

theorem fresh_statePass :
    ∃ m s m' t, Runs.run (watch Pace.upd (Sys.step sampleDecode Candef.bytewise)) ({}, {})
        [.received statusRunningBytes] = some (m, s) ∧
      Runs.run (watch Pace.upd (Sys.step sampleDecode Candef.bytewise)) (m, s)
        (List.replicate 11 statePass).flatten = some (m', t) ∧
      ∃ c' f', Made sampleDecode Candef.bytewise [.received statusRunningBytes]
          (List.replicate 11 statePass).flatten .mcuState c' f' ∧
        f' ∈ t.txThread.taken.drop s.txThread.taken.length :=
  ⟨_, _, _, _, rfl, rfl, fresh (g := .hz100) (c := .sendMcuState { state := 3 })
    bytewise_frame_isSome (by decide +kernel) rfl rfl (by decide) rfl (by decide) (by decide)⟩

end

end CCU
