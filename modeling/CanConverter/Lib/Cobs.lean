import Mathlib.Data.List.Basic
import Mathlib.Tactic.Common

/-!
# Consistent overhead byte stuffing: the decoder

A segment is a sequence of blocks.  A block is a code byte `c ≠ 0` and `c - 1` bytes; between two
blocks stands a zero of the data, unless the first of them has the code `0xFF`.

* `decode`         a segment, block by block; `none` if it is empty or a block is cut off;
* `Parser`         a decoder fed byte by byte; `Standard` says that it finishes a segment and starts
                   over at each zero, and ignores empty segments;
* `byteFed`        such a decoder; `byteFed_standard`.
-/

namespace Cobs

/-- the zero that follows a block with the code `c` -/
def gap (c : UInt8) : List UInt8 := if c = 0xFF then [] else [0]

def decode : List UInt8 → Option (List UInt8)
  | [] => none
  | c :: l =>
    if c = 0 ∨ l.length < c.toNat - 1 then none
    else if l.drop (c.toNat - 1) = [] then some (l.take (c.toNat - 1))
    else (decode (l.drop (c.toNat - 1))).map fun p => l.take (c.toNat - 1) ++ gap c ++ p
termination_by l => l.length
decreasing_by
  rw [List.length_drop, List.length_cons]
  omega

theorem decode_nil : decode [] = none := by rw [decode]

section
variable {c : UInt8} {block tl p : List UInt8}

theorem decode_last (hc : c ≠ 0) (h : block.length = c.toNat - 1) :
    decode (c :: block) = some block := by
  rw [decode, if_neg, if_pos]
  · rw [List.take_of_length_le (Nat.le_of_eq h)]
  · exact List.drop_of_length_le (Nat.le_of_eq h)
  · rintro (h0 | hlt)
    · exact hc h0
    · omega

theorem decode_block (hc : c ≠ 0) (h : block.length = c.toNat - 1) (ht : decode tl = some p) :
    decode (c :: (block ++ tl)) = some (block ++ gap c ++ p) := by
  have hd : (block ++ tl).drop (c.toNat - 1) = tl := by rw [← h, List.drop_left]
  have hk : (block ++ tl).take (c.toNat - 1) = block := by rw [← h, List.take_left]
  have hne : tl ≠ [] := by
    intro h0
    rw [h0, decode_nil] at ht
    cases ht
  rw [decode, if_neg, hd, if_neg hne, ht, hk]
  · rfl
  · rintro (h0 | hlt)
    · exact hc h0
    · rw [List.length_append] at hlt
      omega

/-- **a segment is decoded block by block** -/
theorem decode_cases {seg : List UInt8} (h : decode seg = some p) :
    ∃ c block tl, seg = c :: (block ++ tl) ∧ c ≠ 0 ∧ block.length = c.toNat - 1 ∧
      ((tl = [] ∧ p = block) ∨ ∃ q, decode tl = some q ∧ p = block ++ gap c ++ q) := by
  cases seg with
  | nil =>
    rw [decode_nil] at h
    cases h
  | cons c l =>
    rw [decode] at h
    split at h
    · cases h
    · rename_i hc
      rw [not_or, Nat.not_lt] at hc
      refine ⟨c, l.take (c.toNat - 1), l.drop (c.toNat - 1), ?_, hc.1, ?_, ?_⟩
      · rw [List.take_append_drop]
      · rw [List.length_take, Nat.min_eq_left hc.2]
      · split at h
        · rename_i hd
          exact .inl ⟨hd, (Option.some.inj h).symm⟩
        · obtain ⟨q, hq, rfl⟩ := Option.map_eq_some_iff.mp h
          exact .inr ⟨q, hq, rfl⟩

end

/-! ## decoders fed byte by byte -/

/-- a decoder: its start state, and what a byte does, a packet it delivers included -/
structure Parser (σ : Type) where
  init : σ
  feed : σ → UInt8 → σ × Option (List UInt8)

namespace Parser
variable {σ : Type} (P : Parser σ)

/-- feed a byte and append what it delivers -/
def feedTo (st : σ × List (List UInt8)) (b : UInt8) : σ × List (List UInt8) :=
  ((P.feed st.1 b).1, st.2 ++ (P.feed st.1 b).2.toList)

def feedAll (st : σ × List (List UInt8)) (bytes : List UInt8) : σ × List (List UInt8) :=
  bytes.foldl P.feedTo st

/-- it finishes and starts over at each zero, delivers nothing in between, and ignores empty
segments -/
structure Standard : Prop where
  silent : ∀ s b, b ≠ 0 → (P.feed s b).2 = none
  reset : ∀ s, (P.feed s 0).1 = P.init
  empty : (P.feed P.init 0).2 = none
  finish : ∀ seg p, 0 ∉ seg → decode seg = some p →
    (P.feed (P.feedAll (P.init, []) seg).1 0).2 = some p

variable {P}

theorem feedAll_append (st : σ × List (List UInt8)) (l l' : List UInt8) :
    P.feedAll st (l ++ l') = P.feedAll (P.feedAll st l) l' := List.foldl_append

/-- what was delivered before does not matter -/
theorem feedAll_state (s : σ) (out out' l : List _) :
    (P.feedAll (s, out) l).1 = (P.feedAll (s, out') l).1 := by
  induction l generalizing s out out' with
  | nil => rfl
  | cons b l ih => exact ih _ _ _

/-- what was delivered before stays -/
theorem feedAll_out (s : σ) (out l : List _) :
    (P.feedAll (s, out) l).2 = out ++ (P.feedAll (s, []) l).2 := by
  induction l generalizing s out with
  | nil => exact (List.append_nil out).symm
  | cons b l ih =>
    show (P.feedAll ((P.feed s b).1, out ++ (P.feed s b).2.toList) l).2 =
      out ++ (P.feedAll ((P.feed s b).1, [] ++ (P.feed s b).2.toList) l).2
    rw [ih, ih _ ([] ++ (P.feed s b).2.toList), List.nil_append, List.append_assoc]

/-- deliveries of a stretch and of the rest -/
theorem feedAll_append_out (s : σ) (l l' : List UInt8) :
    (P.feedAll (s, []) (l ++ l')).2 =
      (P.feedAll (s, []) l).2 ++ (P.feedAll ((P.feedAll (s, []) l).1, []) l').2 := by
  rw [feedAll_append]
  exact feedAll_out _ _ _

variable (hP : P.Standard)
include hP

/-- **at most one packet for each zero** -/
theorem Standard.feedAll_count (s : σ) (l : List UInt8) :
    (P.feedAll (s, []) l).2.length ≤ l.count 0 := by
  induction l generalizing s with
  | nil => exact Nat.le_refl 0
  | cons b l ih =>
    have hone : (P.feed s b).2.toList.length ≤ if b = 0 then 1 else 0 := by
      by_cases hb : b = 0
      · rw [if_pos hb]
        exact Option.length_toList_le
      · rw [if_neg hb, hP.silent s b hb]
        exact Nat.le_refl 0
    have hrest := ih (P.feed s b).1
    show (P.feedAll ((P.feed s b).1, [] ++ (P.feed s b).2.toList) l).2.length ≤ _
    rw [feedAll_out, List.nil_append, List.length_append, List.count_cons]
    simp only [beq_iff_eq]
    omega

theorem Standard.feedAll_silent (s : σ) (out : List (List UInt8)) {l : List UInt8} (h : 0 ∉ l) :
    (P.feedAll (s, out) l).2 = out := by
  induction l generalizing s out with
  | nil => rfl
  | cons b l ih =>
    have hb : b ≠ 0 := fun h0 => h (h0 ▸ List.mem_cons_self)
    show (P.feedAll (P.feedTo (s, out) b) l).2 = out
    rw [feedTo, hP.silent s b hb]
    refine (ih _ _ fun hm => h (List.mem_cons_of_mem b hm)).trans ?_
    exact List.append_nil out

/-- **a segment and its zero deliver what the segment decodes to** -/
theorem Standard.feedAll_segment (out : List (List UInt8)) {seg p : List UInt8} (h0 : 0 ∉ seg)
    (h : decode seg = some p) :
    P.feedAll (P.init, out) (seg ++ [0]) = (P.init, out ++ [p]) := by
  have hs := hP.feedAll_silent P.init out h0
  have hst := feedAll_state (P := P) P.init out [] seg
  have hp := hP.finish seg p h0 h
  rw [feedAll_append]
  show P.feedTo (P.feedAll (P.init, out) seg) 0 = _
  rw [feedTo, hP.reset, hs, hst, hp]
  rfl

/-- a zero between segments changes nothing -/
theorem Standard.feedAll_zero (out : List (List UInt8)) :
    P.feedAll (P.init, out) [0] = (P.init, out) := by
  show P.feedTo (P.init, out) 0 = _
  rw [feedTo, hP.reset, hP.empty]
  exact congrArg _ (List.append_nil out)

/-- after a zero the decoder is back at its start -/
theorem Standard.feedAll_resync (st : σ × List (List UInt8)) (l : List UInt8) :
    (P.feedAll st (l ++ [0])).1 = P.init := by
  rw [feedAll_append]
  exact hP.reset _

end Parser

/-! ## a decoder -/

/-- the data so far, the code of the current block (0: no block has begun), the bytes it lacks -/
structure St where
  out : List UInt8 := []
  code : UInt8 := 0
  left : Nat := 0
deriving DecidableEq

def St.feed (s : St) (b : UInt8) : St × Option (List UInt8) :=
  if b = 0 then ({}, if s.code ≠ 0 ∧ s.left = 0 then some s.out else none)
  else if s.left = 0 then
    ({ out := s.out ++ (if s.code = 0 then [] else gap s.code), code := b, left := b.toNat - 1 },
      none)
  else ({ s with out := s.out ++ [b], left := s.left - 1 }, none)

def byteFed : Parser St where
  init := {}
  feed := St.feed

theorem byteFed_block (s : St) (out : List (List UInt8)) {block : List UInt8} (h0 : 0 ∉ block)
    (h : s.left = block.length) :
    (byteFed.feedAll (s, out) block).1 = { s with out := s.out ++ block, left := 0 } := by
  induction block generalizing s out with
  | nil =>
    have hl : s.left = 0 := h
    show s = { s with out := s.out ++ [], left := 0 }
    rw [List.append_nil, ← hl]
  | cons b block ih =>
    have hb : b ≠ 0 := fun hb => h0 (hb ▸ List.mem_cons_self)
    have hl : s.left ≠ 0 := by
      rw [h]
      exact Nat.succ_ne_zero _
    have hf : (s.feed b).1 = { s with out := s.out ++ [b], left := s.left - 1 } := by
      rw [St.feed, if_neg hb, if_neg hl]
    show (byteFed.feedAll ((s.feed b).1, _) block).1 = _
    rw [hf, ih _ _ (fun hm => h0 (List.mem_cons_of_mem b hm)) (by rw [h]; rfl)]
    simp only [List.append_assoc, List.singleton_append]

theorem byteFed_segment (n : Nat) : ∀ (s : St) (out : List (List UInt8)) {seg p : List UInt8},
    seg.length ≤ n → 0 ∉ seg → s.left = 0 → decode seg = some p →
    ∃ c, c ≠ 0 ∧ (byteFed.feedAll (s, out) seg).1 =
      { out := s.out ++ (if s.code = 0 then [] else gap s.code) ++ p, code := c, left := 0 } := by
  induction n with
  | zero =>
    intro s out seg p hn _ _ h
    rw [List.length_eq_zero_iff.mp (Nat.le_zero.mp hn), decode_nil] at h
    cases h
  | succ n ih =>
    intro s out seg p hn h0 hl h
    obtain ⟨c, block, tl, rfl, hc, hlen, htl⟩ := decode_cases h
    have hb0 : 0 ∉ block := fun hm => h0 (List.mem_cons_of_mem c (List.mem_append_left tl hm))
    have ht0 : 0 ∉ tl := fun hm => h0 (List.mem_cons_of_mem c (List.mem_append_right block hm))
    have hf : (s.feed c).1 =
        { out := s.out ++ (if s.code = 0 then [] else gap s.code), code := c,
          left := c.toNat - 1 } := by
      rw [St.feed, if_neg hc, if_pos hl]
    have hbl : (byteFed.feedAll ((s.feed c).1, out ++ (s.feed c).2.toList) block).1 =
        { out := s.out ++ (if s.code = 0 then [] else gap s.code) ++ block, code := c,
          left := 0 } := by
      rw [byteFed_block _ _ hb0 (by rw [hf, hlen]), hf]
    have hcons : byteFed.feedAll (s, out) (c :: (block ++ tl)) =
        byteFed.feedAll (byteFed.feedAll ((s.feed c).1, out ++ (s.feed c).2.toList) block) tl :=
      Parser.feedAll_append _ _ _
    rw [hcons]
    rcases htl with ⟨rfl, rfl⟩ | ⟨q, hq, rfl⟩
    · exact ⟨c, hc, hbl⟩
    · have hn' : tl.length ≤ n := by
        rw [List.length_cons, List.length_append] at hn
        omega
      obtain ⟨c', hc', ht⟩ := ih _ (byteFed.feedAll ((s.feed c).1, out ++ (s.feed c).2.toList)
        block).2 hn' ht0 (congrArg St.left hbl) hq
      refine ⟨c', hc', ht.trans ?_⟩
      rw [hbl, if_neg hc]
      simp only [List.append_assoc]

theorem byteFed_standard : byteFed.Standard := by
  refine ⟨?_, fun _ => rfl, rfl, ?_⟩
  · intro s b hb
    show (s.feed b).2 = none
    rw [St.feed, if_neg hb]
    split <;> rfl
  · intro seg p h0 h
    obtain ⟨c, hc, hs⟩ := byteFed_segment seg.length {} [] (Nat.le_refl _) h0 rfl h
    show (St.feed _ 0).2 = some p
    have hs' : (byteFed.feedAll (byteFed.init, []) seg).1 = { out := p, code := c, left := 0 } := hs
    rw [hs', St.feed, if_pos rfl]
    exact if_pos ⟨hc, rfl⟩

end Cobs
