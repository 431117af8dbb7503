import Mathlib.Algebra.BigOperators.Group.List.Lemmas
import CanConverter.Monitor.Listen

/-!
# The summary of `run_test`

The last lines of tools/can_test.py show, for every identifier in order, how often it was seen and
the bytes of its last message.

* `hexText_inj`     the text of the bytes can be read back;
* `lastBytes`       the bytes of the last message of an identifier;
* `Test.Holds`      `last_data` holds them;
* `Digest`          what the lines say;
* `summary_digest`  whenever `run_test` comes to the end, they say so of the messages received.
-/

namespace CCU
open Poll

/-! ## the text of the bytes -/

/-- `" ".join(f"{b:02X}" for b in data)` -/
def hexText (data : List UInt8) : String := " ".intercalate (data.map hex02)

theorem hexDigit_inj : ∀ i < 16, ∀ j < 16, hexDigit i = hexDigit j → i = j := by decide

theorem space_ne_hexDigit : ∀ i < 16, ' ' ≠ hexDigit i := by decide

theorem hex02_toList (b : UInt8) :
    (hex02 b).toList = [hexDigit (b.toNat / 16), hexDigit (b.toNat % 16)] := by
  unfold hex02
  simp

theorem hex02_inj {b c : UInt8} (h : hex02 b = hex02 c) : b = c := by
  have hb := b.toNat_lt
  have hc := c.toNat_lt
  have hlist := congrArg String.toList h
  rw [hex02_toList, hex02_toList] at hlist
  obtain ⟨hhigh, hlow⟩ := List.cons_eq_cons.mp hlist
  have hdiv := hexDigit_inj _ (by omega) _ (by omega) hhigh
  have hmod := hexDigit_inj _ (by omega) _ (by omega) (List.cons_eq_cons.mp hlow).1
  apply UInt8.toNat_inj.mp
  omega

theorem space_notMem_hex02 (b : UInt8) : ' ' ∉ (hex02 b).toList := by
  have hb := b.toNat_lt
  rw [hex02_toList]
  simp only [List.mem_cons, List.not_mem_nil, or_false, not_or]
  exact ⟨space_ne_hexDigit _ (by omega), space_ne_hexDigit _ (by omega)⟩

/-- split at the spaces, the text gives the bytes one by one -/
theorem hexText_split (data : List UInt8) :
    ((hexText data).split ' ').toList.map (·.copy) =
      if data = [] then [""] else data.map hex02 := by
  have hsplit := String.toList_split_intercalate (c := ' ') (l := data.map hex02) fun s hs => by
    obtain ⟨b, _, rfl⟩ := List.mem_map.mp hs
    exact space_notMem_hex02 b
  simp only [List.map_eq_nil_iff] at hsplit
  exact hsplit

/-- **the text can be read back** -/
theorem hexText_inj {data data' : List UInt8} (h : hexText data = hexText data') :
    data = data' := by
  have hne : ∀ b : UInt8, hex02 b ≠ "" := fun b hb => by
    have hlist := congrArg String.toList hb
    rw [hex02_toList] at hlist
    exact absurd hlist (List.cons_ne_nil _ _)
  have hsplit := hexText_split data
  rw [h, hexText_split data'] at hsplit
  cases data with
  | nil =>
    cases data' with
    | nil => rfl
    | cons c data' =>
      rw [if_neg (List.cons_ne_nil c data'), if_pos rfl, List.map_cons] at hsplit
      exact absurd (List.cons_eq_cons.mp hsplit).1 (hne c)
  | cons b data =>
    cases data' with
    | nil =>
      rw [if_pos rfl, if_neg (List.cons_ne_nil b data), List.map_cons] at hsplit
      exact absurd (List.cons_eq_cons.mp hsplit).1.symm (hne b)
    | cons c data' =>
      rw [if_neg (List.cons_ne_nil c data'), if_neg (List.cons_ne_nil b data)] at hsplit
      exact (List.map_injective_iff.mpr fun _ _ => hex02_inj) hsplit.symm

/-! ## the bytes of the last message -/

/-- the bytes of the last message of an identifier -/
def lastBytes (msgs : List CanMsg) (fid : Nat) : Option (List UInt8) :=
  ((msgs.filter fun msg => msg.arbitrationId = fid).getLast?).map fun msg => msg.data.take msg.dlc

theorem lastBytes_snoc (msgs : List CanMsg) (msg : CanMsg) (fid : Nat) :
    lastBytes (msgs ++ [msg]) fid =
      if msg.arbitrationId = fid then some (msg.data.take msg.dlc) else lastBytes msgs fid := by
  unfold lastBytes
  rw [List.filter_append]
  by_cases hid : msg.arbitrationId = fid <;> simp [hid]

theorem lastBytes_isSome {msgs : List CanMsg} {fid : Nat}
    (h : ∃ msg ∈ msgs, msg.arbitrationId = fid) : (lastBytes msgs fid).isSome = true := by
  obtain ⟨msg, hmsg, hid⟩ := h
  have hmem : msg ∈ msgs.filter fun msg => msg.arbitrationId = fid :=
    List.mem_filter.mpr ⟨hmsg, decide_eq_true hid⟩
  unfold lastBytes
  rw [Option.isSome_map]
  exact List.getLast?_isSome.mpr (List.ne_nil_of_mem hmem)

/-- `last_data` holds the bytes of the last messages -/
structure Test.Holds (t : Test) (msgs : List CanMsg) : Prop extends t.Follows msgs where
  last : ∀ fid, t.lastData.lookup fid = lastBytes msgs fid

theorem Test.Holds.onMsg {t t' : Test} {msgs : List CanMsg} {msg : CanMsg} (h : t.Holds msgs)
    (hm : t.onMsg msg = some t') : t'.Holds (msgs ++ [msg]) := by
  refine ⟨h.toFollows.onMsg hm, fun fid => ?_⟩
  obtain ⟨decoded, _, rfl⟩ := Option.map_eq_some_iff.mp hm
  rw [lastBytes_snoc]
  by_cases hid : msg.arbitrationId = fid
  · subst hid
    simp
  · rw [if_neg hid, ← h.last fid]
    exact AList.lookup_insert_ne fun heq => hid heq.symm

/-! ## the lines of the summary -/

/-- the lines say how often each identifier was seen, in order, and the bytes of its last message -/
structure Digest (r : Summary) (msgs : List CanMsg) : Prop where
  ascending : (r.rows.map SummaryRow.fid).Pairwise (· < ·)
  seen : ∀ fid, fid ∈ r.rows.map SummaryRow.fid ↔ ∃ msg ∈ msgs, msg.arbitrationId = fid
  total : (r.rows.map SummaryRow.cnt).sum = msgs.length
  last : ∀ row ∈ r.rows, ∀ data, row.raw = hexText data ↔ lastBytes msgs row.fid = some data

section
variable {s : Traffic} {duration : PyFloat} {sendDfuRequest : Bool} {n : Nat} {t : Test}
  {msgs : List CanMsg}

/-- the counts of distinct identifiers, all of them, add up to the messages -/
theorem sum_count (hnodup : t.counts.keys.Nodup) (h : t.Follows msgs) :
    (t.counts.keys.map t.count).sum = msgs.length := by
  have hperm : t.counts.keys.Perm (msgs.map CanMsg.arbitrationId).dedup := by
    apply (List.perm_ext_iff_of_nodup hnodup (List.nodup_dedup _)).mpr
    intro fid
    rw [← AList.mem_keys, h.mem, List.mem_dedup, List.mem_map]
  have hcount : t.count = fun fid => (msgs.map CanMsg.arbitrationId).count fid := by
    funext fid
    rw [h.count, List.count, List.countP_map]
    apply List.countP_congr
    intro msg _
    simp [Function.comp_apply]
  rw [(hperm.map t.count).sum_eq, hcount, List.sum_map_count_dedup_eq_length, List.length_map]

theorem Test.Holds.digest (h : t.Holds msgs) {elapsed : Rat} {r : Summary}
    (hr : t.summary sendDfuRequest elapsed = some r) : Digest r msgs := by
  have hkeys : elapsed ≠ 0 ∨ t.counts.keys = [] := by
    by_contra hnot
    obtain ⟨hz, hne⟩ := not_or.mp hnot
    obtain ⟨fid, rest, hsort⟩ : ∃ fid rest, t.counts.keys.insertionSort (· ≤ ·) = fid :: rest := by
      apply List.exists_cons_of_ne_nil
      intro hnil
      have hlen := List.length_insertionSort (· ≤ ·) t.counts.keys
      rw [hnil] at hlen
      exact hne (List.length_eq_zero_iff.mp hlen.symm)
    have hraise : pyDiv (t.count fid) elapsed = none := if_pos (not_not.mp hz)
    unfold Test.summary at hr
    rw [hsort, List.mapM_cons, hraise] at hr
    cases hr
  rw [Test.summary_eq hkeys] at hr
  obtain rfl := Option.some.inj hr
  have hfid : ((t.counts.keys.insertionSort (· ≤ ·)).map (t.row elapsed)).map SummaryRow.fid =
      t.counts.keys.insertionSort (· ≤ ·) := by
    rw [List.map_map]
    exact List.map_id _
  have hperm := List.perm_insertionSort (· ≤ ·) t.counts.keys
  refine ⟨?_, fun fid => ?_, ?_, ?_⟩
  · rw [hfid]
    have hsorted := List.pairwise_insertionSort (· ≤ ·) t.counts.keys
    have hnodup : (t.counts.keys.insertionSort (· ≤ ·)).Nodup :=
      hperm.nodup_iff.mpr t.counts.keys_nodup
    exact (hsorted.and hnodup).imp fun h => lt_of_le_of_ne h.1 h.2
  · rw [hfid, List.mem_insertionSort, ← AList.mem_keys]
    exact h.mem fid
  · rw [List.map_map]
    show ((t.counts.keys.insertionSort (· ≤ ·)).map t.count).sum = msgs.length
    rw [(hperm.map t.count).sum_eq]
    exact sum_count t.counts.keys_nodup h.toFollows
  · intro row hrow data
    obtain ⟨fid, hmem, rfl⟩ := List.mem_map.mp hrow
    rw [List.mem_insertionSort, ← AList.mem_keys, h.mem] at hmem
    obtain ⟨bytes, hbytes⟩ := Option.isSome_iff_exists.mp (lastBytes_isSome hmem)
    show hexText ((t.lastData.lookup fid).getD []) = hexText data ↔ lastBytes msgs fid = some data
    rw [h.last, hbytes, Option.getD_some, Option.some_inj]
    exact ⟨hexText_inj, congrArg hexText⟩

theorem testRound_holds {t' : Test}
    (hround : testRound duration sendDfuRequest s n t = .going t')
    (h : t.Holds (s.received (s.Within duration) n)) :
    t'.Holds (s.received (s.Within duration) (n + 1)) := by
  obtain ⟨hin, _⟩ := testRound_going hround
  rw [Traffic.received_succ, if_pos hin]
  cases hmsg : s.msg n with
  | none =>
    obtain rfl := Outcome.going.inj ((testRound_quiet hin hmsg sendDfuRequest).symm.trans hround)
    rw [Option.toList_none, List.append_nil]
    exact h
  | some msg =>
    rw [testRound_msg hin hmsg] at hround
    cases hon : t.onMsg msg with
    | none =>
      rw [hon] at hround
      cases hround
    | some t'' =>
      rw [hon] at hround
      cases hround
      exact h.onMsg hon

theorem testAfter_holds (h : testAfter duration sendDfuRequest s n = .going t) :
    t.Holds (s.received (s.Within duration) n) :=
  inv_going (I := fun n t => t.Holds (s.received (s.Within duration) n))
    ⟨Test.follows_nil, fun _ => rfl⟩ (fun _ _ _ ht hround => testRound_holds hround ht) h

/-- listening is over: nothing more is received -/
theorem Traffic.received_late {k : Nat} (hlate : ¬ s.Within duration k) (hle : k ≤ n) :
    s.received (s.Within duration) n = s.received (s.Within duration) k := by
  induction hle with
  | refl => rfl
  | step hle ih =>
    rw [Traffic.received_succ, ih, if_neg fun hin => hlate (Traffic.within_of_le hin hle)]
    exact List.append_nil _

end

/-- **Whatever is on the bus, a `run_test` that comes to its end shows the identifiers received in
ascending order, each once, with counts that add up to the messages and a text from which the bytes of
its last message can be read back.** -/
theorem summary_digest (duration : PyFloat) (sendDfuRequest : Bool) (s : Traffic) (n : Nat)
    (t : Test) (r : Summary)
    (h : testAfter duration sendDfuRequest s n = .stopped (.finished t r)) :
    Digest r (s.received (s.Within duration) n) := by
  obtain ⟨k, hk, t', hgoing, hround⟩ := stopped_round h
  have hholds := testAfter_holds hgoing
  by_cases hin : s.Within duration k
  · cases testRound_stopped hin hround
  · rw [Traffic.received_late hin (Nat.le_of_lt hk)]
    rw [testRound_late hin] at hround
    cases hsum : t'.summary sendDfuRequest (s.later k - s.start) with
    | none =>
      rw [hsum] at hround
      cases hround
    | some r' =>
      rw [hsum] at hround
      cases hround
      exact hholds.digest hsum

/-- one frame, then the end of listening -/
theorem summary_digest_single :
    ∃ t r, testAfter (.fin 1) false (.single (.data 0x110 true [0xAB, 1] (by decide))) 2 =
        .stopped (.finished t r) ∧
      (∃ row ∈ r.rows, row.fid = 0x110 ∧ row.raw = hexText [0xAB, 1]) ∧
      (r.rows.map SummaryRow.cnt).sum = 1 := by
  have hwithin := Traffic.single_within (.data 0x110 true [0xAB, 1] (by decide)) 1
  have hin := (hwithin 0).mpr (by norm_num)
  have hlate : ¬ Traffic.Within (.single (.data 0x110 true [0xAB, 1] (by decide))) (.fin 1) 1 :=
    fun hin => absurd ((hwithin 1).mp hin) (by norm_num)
  obtain ⟨t, ht⟩ : ∃ t, testAfter (.fin 1) false
      (.single (.data 0x110 true [0xAB, 1] (by decide))) 1 = .going t :=
    ⟨_, testRound_msg (t := {}) hin rfl false⟩
  have helapsed : (Traffic.single (.data 0x110 true [0xAB, 1] (by decide))).later 1 -
      (Traffic.single (.data 0x110 true [0xAB, 1] (by decide))).start ≠ 0 := by
    show ((1 : Nat) : Rat) - 0 ≠ 0
    norm_num
  have hend := (after_succ_going ht).trans (testRound_late hlate false)
  rw [Test.summary_eq (.inl helapsed) false] at hend
  have hdigest := summary_digest _ _ _ _ _ _ hend
  have hreceived : Traffic.received (.single (.data 0x110 true [0xAB, 1] (by decide)))
      (Traffic.Within (.single (.data 0x110 true [0xAB, 1] (by decide))) (.fin 1)) 2 =
      [⟨0x110, true, 2, [0xAB, 1]⟩] := by
    rw [Traffic.received_succ, Traffic.received_succ, if_pos hin, if_neg hlate]
    rfl
  rw [hreceived] at hdigest
  obtain ⟨row, hrow, hfid⟩ := List.mem_map.mp ((hdigest.seen 0x110).mpr ⟨_, List.mem_cons_self, rfl⟩)
  refine ⟨t, _, hend, ⟨row, hrow, hfid, ?_⟩, hdigest.total⟩
  rw [hdigest.last row hrow, hfid]
  rfl

end CCU
