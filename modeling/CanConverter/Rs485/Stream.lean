import CanConverter.Rs485.Encode

/-!
# `parser_thread_fn`: the byte stream in packets

The parser thread gets the stream in packets of any size, with receive timeouts in between, and
feeds it to a COBS decoder byte by byte.  The decoder is a parameter; the thread relies on
`Cobs.Parser.Standard`.

* `deliveries_eq_feedAll`   the cuts and the timeouts do not matter;
* `feedAll_frames`          encoded frames are delivered one by one;
* `stream_lossless`         the two together, after any garbage that ends in a zero.
-/

namespace CCU
open Cobs

/-- what `k_msgq_get` on `rs485_rx_queue` returns -/
inductive RxEv where
  | packet (data : List UInt8)
  | timeout
deriving DecidableEq

def RxEv.bytes : RxEv → List UInt8
  | .packet data => data
  | .timeout => []

section
variable {σ : Type} (P : Parser σ)

/-- one round of the loop of `parser_thread_fn`: the decoder's state and what `on_frame` got -/
def parserRound (st : σ × List (List UInt8)) : RxEv → σ × List (List UInt8)
  | .packet data => P.feedAll st data
  | .timeout => st -- "No RS485 packet for 500 ms"

/-- the calls of `on_frame`, in order -/
def deliveries (evs : List RxEv) : List (List UInt8) :=
  (evs.foldl (parserRound P) (P.init, [])).2

variable {P}

theorem parserRound_eq (st : σ × List (List UInt8)) (e : RxEv) :
    parserRound P st e = P.feedAll st e.bytes := by
  cases e <;> rfl

theorem foldl_parserRound (evs : List RxEv) (st : σ × List (List UInt8)) :
    evs.foldl (parserRound P) st = P.feedAll st (evs.flatMap RxEv.bytes) := by
  induction evs generalizing st with
  | nil => rfl
  | cons e evs ih =>
    rw [List.foldl_cons, List.flatMap_cons, Parser.feedAll_append, ← parserRound_eq]
    exact ih _

/-- **neither the cuts nor the timeouts matter** -/
theorem deliveries_eq_feedAll (evs : List RxEv) :
    deliveries P evs = (P.feedAll (P.init, []) (evs.flatMap RxEv.bytes)).2 :=
  congrArg Prod.snd (foldl_parserRound evs (P.init, []))

theorem feedAll_sendFrame (hP : P.Standard) (out : List (List UInt8)) (p : List UInt8) :
    P.feedAll (P.init, out) (sendFrame (cobsEncode p)) = (P.init, out ++ [p]) := by
  have hseg := hP.feedAll_segment out (zero_not_mem_cobsEncode p) (decode_cobsEncode p)
  have hsplit : sendFrame (cobsEncode p) = (cobsEncode p ++ [0]) ++ [0] := by
    unfold sendFrame
    rw [List.append_assoc]
    rfl
  rw [hsplit, Parser.feedAll_append, hseg]
  exact hP.feedAll_zero _

/-- **encoded frames are delivered one by one** -/
theorem feedAll_frames (hP : P.Standard) (ps : List (List UInt8)) (out : List (List UInt8)) :
    P.feedAll (P.init, out) (ps.flatMap fun p => sendFrame (cobsEncode p)) =
      (P.init, out ++ ps) := by
  induction ps generalizing out with
  | nil =>
    rw [List.append_nil]
    rfl
  | cons p ps ih =>
    rw [List.flatMap_cons, Parser.feedAll_append, feedAll_sendFrame hP, ih, List.append_assoc]
    rfl

/-- garbage that ends in a zero leaves the decoder at its start -/
theorem feedAll_garbage (hP : P.Standard) {g : List UInt8} (hg : g = [] ∨ g.getLast? = some 0) :
    P.feedAll (P.init, []) g = (P.init, deliveries P [.packet g]) := by
  refine Prod.ext ?_ rfl
  rcases hg with rfl | hg
  · rfl
  · obtain ⟨l, rfl⟩ := List.getLast?_eq_some_iff.mp hg
    exact hP.feedAll_resync _ l

/-- **COBS streaming is loss-free whatever the packetisation.**  After what the garbage `g` caused,
`on_frame` gets exactly the frames `ps`; the encoder's output has no zero, is never empty and
decodes to its input. -/
theorem stream_lossless (hP : P.Standard) (ps : List (List UInt8)) {g : List UInt8}
    (hg : g = [] ∨ g.getLast? = some 0) (evs : List RxEv)
    (hevs : evs.flatMap RxEv.bytes = g ++ ps.flatMap fun p => sendFrame (cobsEncode p)) :
    deliveries P evs = deliveries P [.packet g] ++ ps ∧
    ∀ data, 0 ∉ cobsEncode data ∧ cobsEncode data ≠ [] ∧ decode (cobsEncode data) = some data := by
  refine ⟨?_, fun data => ⟨zero_not_mem_cobsEncode data, cobsEncode_ne_nil data,
    decode_cobsEncode data⟩⟩
  rw [deliveries_eq_feedAll, hevs, Parser.feedAll_append, feedAll_garbage hP hg,
    feedAll_frames hP]

end

/-- half a segment and a zero, then an empty frame and one with zeros, cut at odd places -/
def choppedRun : List RxEv :=
  [.packet [5, 7], .timeout, .packet [0, 1, 0], .packet [0, 2], .timeout, .packet [9, 2, 8],
    .packet [], .packet [1, 0, 0]]

theorem stream_lossless_choppedRun :
    deliveries byteFed choppedRun = deliveries byteFed [.packet [5, 7, 0]] ++ [[], [9, 0, 8, 0]] ∧
    ∀ data, 0 ∉ cobsEncode data ∧ cobsEncode data ≠ [] ∧ decode (cobsEncode data) = some data :=
  stream_lossless byteFed_standard [[], [9, 0, 8, 0]] (.inr rfl) choppedRun (by decide)

end CCU
