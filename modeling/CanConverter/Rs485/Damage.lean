import CanConverter.Rs485.Stream

/-!
# Damage on the RS485 line

Bytes get lost, changed or added, and packets do when `rs485_rx_queue` is full.  Whatever arrives of
a frame, or in its place, is an `Arrival`; nothing is assumed about it.  The frames carry no sequence
number and no checksum, so the zeros are all the parser thread has to find its way back.

* `heard`             the intact frames that find the decoder at its start;
* `heard_run`         what `on_frame` gets besides them, from any state of the decoder;
* `damage_local`      what a damaged frame can cost;
* `deliveries_after`  whatever came before, of intact frames all but the first are heard.
-/

namespace CCU
open Cobs

/-- a frame of the master and the bytes that arrive in its place -/
structure Arrival where
  packet : List UInt8
  bytes : List UInt8
deriving DecidableEq

namespace Arrival

def damaged (a : Arrival) : Bool := a.bytes ≠ sendFrame (cobsEncode a.packet)

/-- the decoder is at its start after it; `c` says whether it was before -/
def closed (c : Bool) (a : Arrival) : Bool :=
  match a.bytes.getLast? with
  | none => c
  | some b => b = 0

end Arrival

/-- the packets of the intact frames that find the decoder at its start -/
def heard : Bool → List Arrival → List (List UInt8)
  | _, [] => []
  | c, a :: line =>
    if a.damaged then heard (a.closed c) line
    else if c then a.packet :: heard true line
    else heard true line

/-- the zeros among the bytes that arrive in place of damaged frames -/
def strayZeros (line : List Arrival) : Nat :=
  ((line.filter Arrival.damaged).flatMap Arrival.bytes).count 0

section
variable {σ : Type} {P : Parser σ} {a : Arrival} {c : Bool} {s : σ}

theorem heard_damaged {line : List Arrival} (h : a.damaged = true) :
    heard c (a :: line) = heard (a.closed c) line := if_pos h

theorem heard_intact {line : List Arrival} (h : ¬ a.damaged = true) :
    heard c (a :: line) = (if c then [a.packet] else []) ++ heard true line := by
  rw [heard, if_neg h]
  cases c with
  | true => rfl
  | false => rfl

theorem strayZeros_damaged {line : List Arrival} (h : a.damaged = true) :
    strayZeros (a :: line) = a.bytes.count 0 + strayZeros line := by
  unfold strayZeros
  rw [List.filter_cons_of_pos h, List.flatMap_cons, List.count_append]

theorem strayZeros_intact {line : List Arrival} (h : ¬ a.damaged = true) :
    strayZeros (a :: line) = strayZeros line := by
  unfold strayZeros
  rw [List.filter_cons_of_neg h]

variable (hP : P.Standard)
include hP

/-! ## one arrival -/

theorem state_closed (hs : c = true → s = P.init) (hc : a.closed c = true) :
    (P.feedAll (s, []) a.bytes).1 = P.init := by
  unfold Arrival.closed at hc
  split at hc
  · rename_i hlast
    rw [List.getLast?_eq_none_iff.mp hlast]
    exact hs hc
  · rename_i b hlast
    obtain ⟨l, hl⟩ := List.getLast?_eq_some_iff.mp hlast
    rw [hl, of_decide_eq_true hc]
    exact hP.feedAll_resync _ l

/-- after the two zeros of `send_frame` the decoder is at its start, and it was there before the
second of them -/
theorem feedAll_sendFrame_any (p : List UInt8) :
    (P.feedAll (s, []) (sendFrame (cobsEncode p))).1 = P.init ∧
      (P.feedAll (s, []) (sendFrame (cobsEncode p))).2.length ≤ 1 := by
  have hsplit : sendFrame (cobsEncode p) = (cobsEncode p ++ [0]) ++ [0] := by
    unfold sendFrame
    rw [List.append_assoc]
    rfl
  have hstart := hP.feedAll_resync (s, []) (cobsEncode p)
  have hcount := hP.feedAll_count s (cobsEncode p ++ [0])
  rw [List.count_append, List.count_eq_zero_of_not_mem (zero_not_mem_cobsEncode p)] at hcount
  rw [hsplit]
  refine ⟨hP.feedAll_resync _ _, ?_⟩
  rw [Parser.feedAll_append_out, hstart, hP.feedAll_zero, List.append_nil]
  exact hcount

/-! ## the line -/

/-- **what `on_frame` gets**, from any state of the decoder -/
theorem heard_run (line : List Arrival) : ∀ (c : Bool) (s : σ), (c = true → s = P.init) →
    (heard c line).Sublist (P.feedAll (s, []) (line.flatMap Arrival.bytes)).2 ∧
    (P.feedAll (s, []) (line.flatMap Arrival.bytes)).2.length ≤ (heard c line).length +
      strayZeros line + line.countP Arrival.damaged + (if c then 0 else 1) ∧
    line.length ≤ (heard c line).length + 2 * line.countP Arrival.damaged +
      (if c then 0 else 1) := by
  induction line with
  | nil => exact fun c s _ => ⟨List.nil_sublist _, Nat.zero_le _, Nat.zero_le _⟩
  | cons a line ih =>
    intro c s hs
    rw [List.flatMap_cons, Parser.feedAll_append_out, List.length_append, List.length_cons]
    by_cases hd : a.damaged = true
    · -- its zeros may close segments, and what follows the last of them spoils the next frame
      obtain ⟨h1, h2, h3⟩ := ih (a.closed c) (P.feedAll (s, []) a.bytes).1
        (state_closed hP hs)
      have hcount := hP.feedAll_count s a.bytes
      have hopen : (if a.closed c = true then 0 else 1) ≤ 1 := by
        split
        · exact Nat.zero_le 1
        · exact Nat.le_refl 1
      rw [heard_damaged hd, strayZeros_damaged hd, List.countP_cons_of_pos hd]
      refine ⟨h1.trans (List.sublist_append_right _ _), ?_, ?_⟩
      · omega
      · omega
    · have hbytes : a.bytes = sendFrame (cobsEncode a.packet) := by
        unfold Arrival.damaged at hd
        exact not_not.mp fun h => hd (decide_eq_true h)
      have hone := feedAll_sendFrame_any (s := s) hP a.packet
      rw [← hbytes] at hone
      obtain ⟨hinit, hle⟩ := hone
      obtain ⟨h1, h2, h3⟩ := ih true P.init fun _ => rfl
      rw [if_pos rfl] at h2 h3
      rw [heard_intact hd, strayZeros_intact hd, List.countP_cons_of_neg hd, hinit]
      cases c with
      | true =>
        obtain rfl := hs rfl
        rw [hbytes, feedAll_sendFrame hP]
        refine ⟨List.Sublist.append (List.Sublist.refl _) h1, ?_, ?_⟩
        · show 1 + _ ≤ (heard true line).length + 1 + _ + _ + 0
          omega
        · show line.length + 1 ≤ (heard true line).length + 1 + _ + 0
          omega
      | false =>
        refine ⟨h1.trans (List.sublist_append_right _ _), ?_, ?_⟩
        · show _ + _ ≤ (heard true line).length + _ + _ + 1
          omega
        · show line.length + 1 ≤ (heard true line).length + _ + 1
          omega

/-- **Damage is local.**  Whatever arrives in place of damaged frames and however the line is cut
into packets, `on_frame` gets, in order, every intact frame that does not follow remains without a
zero at their end; a damaged frame costs at most itself and the next one, and causes at most one
call more than zeros arrived in its place. -/
theorem damage_local (line : List Arrival) (rx : List RxEv)
    (hrx : rx.flatMap RxEv.bytes = line.flatMap Arrival.bytes) :
    (heard true line).Sublist (deliveries P rx) ∧
    line.length ≤ (heard true line).length + 2 * line.countP Arrival.damaged ∧
    (deliveries P rx).length ≤
      (heard true line).length + strayZeros line + line.countP Arrival.damaged := by
  obtain ⟨h1, h2, h3⟩ := heard_run hP line true P.init fun _ => rfl
  rw [deliveries_eq_feedAll, hrx]
  exact ⟨h1, h3, h2⟩

/-- of what has come before, at most one call for each of its zeros and one for the first frame -/
theorem deliveries_after (g : List UInt8) (ps : List (List UInt8)) (rx : List RxEv)
    (hrx : rx.flatMap RxEv.bytes = g ++ ps.flatMap fun p => sendFrame (cobsEncode p)) :
    ∃ bad, bad.length ≤ g.count 0 + 1 ∧ deliveries P rx = bad ++ ps.tail := by
  have hg := hP.feedAll_count P.init g
  rw [deliveries_eq_feedAll, hrx, Parser.feedAll_append_out]
  cases ps with
  | nil =>
    refine ⟨(P.feedAll (P.init, []) g).2, Nat.le_succ_of_le hg, ?_⟩
    rw [List.flatMap_nil]
    rfl
  | cons p ps =>
    obtain ⟨hinit, hle⟩ := feedAll_sendFrame_any (s := (P.feedAll (P.init, []) g).1) hP p
    rw [List.flatMap_cons, Parser.feedAll_append_out, hinit, feedAll_frames hP, List.nil_append,
      ← List.append_assoc]
    refine ⟨_, ?_, rfl⟩
    rw [List.length_append]
    omega

end

/-- the end of the second of four frames is lost, and it swallows the third -/
def cutLine : List Arrival :=
  [⟨[7], [2, 7, 0, 0]⟩, ⟨[8, 9], [3, 8]⟩, ⟨[5], [2, 5, 0, 0]⟩, ⟨[6], [2, 6, 0, 0]⟩]

theorem damage_local_cutLine :
    heard true cutLine = [[7], [6]] ∧
    (heard true cutLine).Sublist (deliveries byteFed [.packet [2, 7, 0, 0, 3, 8, 2], .timeout,
      .packet [5, 0, 0, 2, 6, 0, 0]]) ∧
    cutLine.length = (heard true cutLine).length + 2 * cutLine.countP Arrival.damaged :=
  ⟨by decide, (damage_local byteFed_standard cutLine _ (by decide)).1, by decide⟩

end CCU
