import Mathlib.Logic.Function.Basic

/-!
# A record that is sent in several frames

A record `R` has the fields `ι`; the field `i` goes to the signal `i`, which is one of the signals of
the frame `home i`.

* `Split.Exact`      nothing is lost, and a field shows up in its own signal of its own frame and
                     nowhere else;
* `Exact.of_encode`  the split is exact if a frame tells its own signals apart and a signal its field.
-/

namespace Split

variable {R V W F ι κ : Type*}

/-- two records differ in some frame, and a change of the field `i` alone changes the frame `home i`
alone and there the signal `i` alone -/
structure Exact (get : ι → R → V) (signal : ι → R → W) (home : ι → κ) (frame : κ → R → F) :
    Prop where
  complete : ∀ r r', r ≠ r' → ∃ k, frame k r ≠ frame k r'
  alone : ∀ i r r', get i r ≠ get i r' → (∀ j, j ≠ i → get j r = get j r') →
    (∀ k, frame k r ≠ frame k r' ↔ k = home i) ∧ ∀ j, signal j r ≠ signal j r' ↔ j = i

theorem Exact.of_encode {get : ι → R → V} {signal : ι → R → W} {home : ι → κ} {frame : κ → R → F}
    (encode : ι → V → W) (hext : ∀ r r', (∀ i, get i r = get i r') → r = r')
    (hsignal : ∀ i r, signal i r = encode i (get i r))
    (hencode : ∀ i, Function.Injective (encode i))
    (hframe : ∀ k r r', frame k r = frame k r' ↔ ∀ i, home i = k → signal i r = signal i r') :
    Exact get signal home frame := by
  have hget : ∀ i r r', signal i r = signal i r' ↔ get i r = get i r' := by
    intro i r r'
    rw [hsignal, hsignal]
    exact (hencode i).eq_iff
  refine ⟨fun r r' hne => ?_, fun i r r' hi hother => ⟨fun k => ⟨fun hk => ?_, ?_⟩, fun j =>
    ⟨fun hj => ?_, ?_⟩⟩⟩
  · by_contra hall
    have hsame : ∀ k, frame k r = frame k r' := fun k => Classical.byContradiction fun h => hall ⟨k, h⟩
    exact hne (hext r r' fun i => (hget i r r').mp ((hframe (home i) r r').mp (hsame _) i rfl))
  · -- a frame other than `home i` carries none of what changed
    by_contra hne
    refine hk ((hframe k r r').mpr fun j hj => (hget j r r').mpr (hother j ?_))
    rintro rfl
    exact hne hj.symm
  · rintro rfl hframes
    exact hi ((hget i r r').mp ((hframe _ r r').mp hframes i rfl))
  · by_contra hne
    exact hj ((hget j r r').mpr (hother j hne))
  · rintro rfl hsignals
    exact hi ((hget j r r').mp hsignals)

end Split
