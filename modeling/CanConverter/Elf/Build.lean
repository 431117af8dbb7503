import CanConverter.Elf.Rerun
import CanConverter.Lib.Run

/-!
# The target patch_elf_mcuboot_header over many builds

The target of CMakeLists.txt depends on the link and runs on every build.  It reads the first
`CONFIG_ROM_START_OFFSET` bytes of the signed image into mcuboot_header.bin and then runs the script
on zephyr.elf.  A build that does not link again finds the ELF file that the last build patched; the
signed image may be another one each time.

* `Build.step`       one build, `none` if it fails;
* `Ready`            what the link has to give: a well-formed file with a segment for the header that
                     has the header bytes to itself;
* `Patched`          the state after a build, which the next one starts from;
* `builds_patched`   no build fails, and the last signed image is what the ELF file loads.
-/

namespace CCU
open Runs

/-- a build: the file zephyr_final linked, if it did, and the signed image -/
structure Build where
  linked : Option (List UInt8)
  signedBin : List UInt8

/-- the two commands of the target; `open(..).read(n)` is the header file -/
def Build.step (romStartOffset : Nat) (elfFile : List UInt8) (b : Build) : Option (List UInt8) :=
  match readHeader b.signedBin romStartOffset with
  | none => none
  | some headerBin =>
    let r := patchElf (b.linked.getD elfFile) headerBin romStartOffset
    if r.success then some r.elfFile else none

/-- the file linked last -/
def lastLinked (elf : List UInt8) (l : List Build) : List UInt8 :=
  l.foldl (fun e b => b.linked.getD e) elf

/-- a file that the link gives: there is room for `n` header bytes in a segment, and they are no
part of the ELF header and of the program header table -/
structure Ready (n : Nat) (elf : List UInt8) : Prop where
  wellFormed : WellFormed elf
  first : ∃ ph, First elf n ph
  apart : ∀ t ph, readPhTable elf = some t → First elf n ph →
    ∀ j, ph.pOffset ≤ j → j < ph.pOffset + n → ¬ t.Parsed j

/-- what the target makes of a linked file -/
def ProgramHeader.patched (ph : ProgramHeader) (n : Nat) (signedBin elf : List UInt8) :
    List UInt8 := Slice.assign elf ph.pOffset (ph.pOffset + n : Nat) (signedBin.take n)

section
variable {n : Nat} {elf cur signedBin : List UInt8} {ph : ProgramHeader} {b : Build}

theorem readHeader_take (file : List UInt8) (n : Nat) :
    readHeader file n = some (file.take n) := by
  unfold readHeader
  rw [if_neg (by omega), if_neg (by omega), Int.toNat_natCast]

/-- there is one such entry -/
theorem First.unique {n : Int} {ph' : ProgramHeader} (h : First elf n ph) (h' : First elf n ph') :
    ph = ph' := by
  obtain ⟨i, t, ht, hi, he, hs, hbefore⟩ := first_iff_stopsAt.mp h
  obtain ⟨i', t', ht', hi', he', hs', hbefore'⟩ := first_iff_stopsAt.mp h'
  obtain rfl := Option.some.inj (ht.symm.trans ht')
  rcases Nat.lt_trichotomy i i' with hlt | rfl | hgt
  · obtain ⟨ph₁, he₁, hs₁⟩ := hbefore' i hlt
    rw [he] at he₁
    exact absurd (Option.some.inj he₁ ▸ hs) hs₁
  · rw [he] at he'
    exact Option.some.inj he'
  · obtain ⟨ph₁, he₁, hs₁⟩ := hbefore i' hgt
    rw [he'] at he₁
    exact absurd (Option.some.inj he₁ ▸ hs') hs₁

theorem patchElf_at {header : List UInt8} (h : First elf n ph) (hn : header.length = n) :
    patchElf elf header n =
      ⟨true, Slice.assign elf ph.pOffset (ph.pOffset + n : Nat) header⟩ := by
  subst hn
  exact patchElf_stops h

/-- the file as linked, or with some header in it -/
def Patched (n : Nat) (elf cur : List UInt8) : Prop :=
  cur = elf ∨ ∃ ph header, First elf n ph ∧ header.length = n ∧
    cur = Slice.assign elf ph.pOffset (ph.pOffset + n : Nat) header

/-- a header between the tables leaves what the script parses -/
theorem Ready.agree (hr : Ready n elf) (hph : First elf n ph) {t : PhTable}
    (ht : readPhTable elf = some t) {header : List UInt8} (hn : header.length = n) :
    Agree elf (Slice.assign elf ph.pOffset (ph.pOffset + n : Nat) header) t := by
  have hb := hph.within hr.wellFormed.segments
  subst hn
  refine ⟨Slice.length_assign_same hb, fun j hj => ?_⟩
  refine Slice.getElem?_assign_not_mem hb fun hin => ?_
  exact hr.apart t ph ht hph j hin.1 hin.2 hj

/-- **the script finds the same segment in a patched file, and what it leaves does not depend on what
stood there** -/
theorem Patched.patchElf_eq (h : Patched n elf cur) (hr : Ready n elf) (hph : First elf n ph)
    {header : List UInt8} (hn : header.length = n) :
    patchElf cur header n =
      ⟨true, Slice.assign elf ph.pOffset (ph.pOffset + n : Nat) header⟩ := by
  rcases h with rfl | ⟨ph', old, hph', hold, rfl⟩
  · exact patchElf_at hph hn
  · obtain rfl := hph.unique hph'
    obtain ⟨i, hi⟩ := first_iff_stopsAt.mp hph
    obtain ⟨t, ht, _⟩ := id hi
    have hstops := (hr.agree hph ht hold).stopsAt hr.wellFormed ht hi
    rw [patchElf_at (first_iff_stopsAt.mpr ⟨i, hstops⟩) hn]
    have hb := hph.within hr.wellFormed.segments
    subst hn
    rw [Slice.assign_over hb hold]

/-- **one build** -/
theorem Build.step_eq (hcur : Patched n elf cur) (helf : Ready n elf)
    (hn : n ≤ b.signedBin.length) (hph : First (b.linked.getD elf) n ph) :
    b.step n cur = some (ph.patched n b.signedBin (b.linked.getD elf)) := by
  have htake : (b.signedBin.take n).length = n := by
    rw [List.length_take]
    exact Nat.min_eq_left hn
  have hrun : patchElf (b.linked.getD cur) (b.signedBin.take n) n =
      ⟨true, ph.patched n b.signedBin (b.linked.getD elf)⟩ := by
    cases hl : b.linked with
    | none =>
      rw [hl, Option.getD_none] at hph
      exact hcur.patchElf_eq helf hph htake
    | some e =>
      rw [hl, Option.getD_some] at hph
      exact patchElf_at hph htake
  simp only [Build.step, readHeader_take, hrun, if_true]

theorem lastLinked_cons (elf : List UInt8) (b : Build) (l : List Build) :
    lastLinked elf (b :: l) = lastLinked (b.linked.getD elf) l := rfl

theorem Ready.getD (helf : Ready n elf) (hlinked : ∀ e, b.linked = some e → Ready n e) :
    Ready n (b.linked.getD elf) := by
  cases hl : b.linked with
  | none => exact helf
  | some e => exact hlinked e hl

/-- what a build leaves, the next one starts from -/
theorem patched_patched (hph : First elf n ph) (hn : n ≤ signedBin.length) :
    Patched n elf (ph.patched n signedBin elf) := by
  refine .inr ⟨ph, signedBin.take n, hph, ?_, rfl⟩
  rw [List.length_take]
  exact Nat.min_eq_left hn

theorem ready_lastLinked {l : List Build} (helf : Ready n elf)
    (hlinked : ∀ b ∈ l, ∀ e, b.linked = some e → Ready n e) : Ready n (lastLinked elf l) := by
  induction l generalizing elf with
  | nil => exact helf
  | cons b l ih =>
    rw [lastLinked_cons]
    exact ih (helf.getD (hlinked b List.mem_cons_self))
      fun c hc => hlinked c (List.mem_cons_of_mem _ hc)

theorem builds_run {l : List Build} (hcur : Patched n elf cur) (helf : Ready n elf)
    (hlinked : ∀ b ∈ l, ∀ e, b.linked = some e → Ready n e)
    (hn : ∀ b ∈ l, n ≤ b.signedBin.length) :
    ∃ cur', run (Build.step n) cur l = some cur' ∧ Patched n (lastLinked elf l) cur' := by
  induction l generalizing elf cur with
  | nil => exact ⟨cur, rfl, hcur⟩
  | cons b l ih =>
    have hb := hlinked b List.mem_cons_self
    have hready := helf.getD hb
    obtain ⟨ph, hph⟩ := hready.first
    have hstep := Build.step_eq hcur helf (hn b List.mem_cons_self) hph
    obtain ⟨cur', hrun, hcur'⟩ := ih (patched_patched hph (hn b List.mem_cons_self)) hready
      (fun c hc => hlinked c (List.mem_cons_of_mem _ hc))
      fun c hc => hn c (List.mem_cons_of_mem _ hc)
    exact ⟨cur', run_cons_some.mpr ⟨_, hstep, hrun⟩, hcur'⟩

/-- the bytes of a segment -/
def ProgramHeader.loads (ph : ProgramHeader) (elf : List UInt8) : List UInt8 :=
  (elf.drop ph.pOffset).take ph.pFilesz

/-- the segment holds the signed image, if what follows its header is what was linked -/
theorem loads_patched (hr : Ready n elf) (hph : First elf n ph) (hn : n ≤ signedBin.length)
    (hbody : ∀ j, n ≤ j → j < ph.pFilesz → elf[ph.pOffset + j]? = signedBin[j]?) :
    ph.loads (ph.patched n signedBin elf) = signedBin.take ph.pFilesz := by
  have hb := hph.within hr.wellFormed.segments
  have htake : (signedBin.take n).length = n := by
    rw [List.length_take]
    exact Nat.min_eq_left hn
  unfold ProgramHeader.loads ProgramHeader.patched
  refine List.ext_getElem? fun j => ?_
  by_cases hj : j < ph.pFilesz
  · rw [List.getElem?_take_of_lt hj, List.getElem?_take_of_lt hj, List.getElem?_drop]
    by_cases hjn : j < n
    · have hmem := Slice.getElem?_assign_mem (r := signedBin.take n) (htake.symm ▸ hb)
        (Nat.le_add_right ph.pOffset j) (by omega)
      rw [htake] at hmem
      rw [hmem, Nat.add_sub_cancel_left, List.getElem?_take_of_lt hjn]
    · have hout := Slice.getElem?_assign (r := signedBin.take n) (Nat.le_add_right ph.pOffset n) hb
        (by omega) (j := ph.pOffset + j) (by omega)
      rw [hout]
      exact hbody j (Nat.not_lt.mp hjn) hj
  · rw [List.getElem?_take_eq_none (Nat.not_lt.mp hj), List.getElem?_take_eq_none (Nat.not_lt.mp hj)]

end

/-- **Over any number of builds, with or without a link, each with a signed image of its own, no build
fails if every linked file is ready and every signed image has a full header; zephyr.elf is then the
file linked last with the header of the last signed image in the first suitable segment, and where
the rest of the segment is as signed, a debugger that loads it writes what the signed image begins
with.** -/
theorem builds_patched (n : Nat) (elf : List UInt8) (l : List Build) (b : Build)
    (helf : Ready n elf) (hlinked : ∀ c ∈ l ++ [b], ∀ e, c.linked = some e → Ready n e)
    (hn : ∀ c ∈ l ++ [b], n ≤ c.signedBin.length) :
    ∃ ph, First (lastLinked elf (l ++ [b])) n ph ∧
      run (Build.step n) elf (l ++ [b]) =
        some (ph.patched n b.signedBin (lastLinked elf (l ++ [b]))) ∧
      ((∀ j, n ≤ j → j < ph.pFilesz →
          (lastLinked elf (l ++ [b]))[ph.pOffset + j]? = b.signedBin[j]?) →
        ph.loads (ph.patched n b.signedBin (lastLinked elf (l ++ [b]))) =
          b.signedBin.take ph.pFilesz) := by
  have hlast : lastLinked elf (l ++ [b]) = b.linked.getD (lastLinked elf l) := by
    rw [lastLinked, List.foldl_append]
    rfl
  have hb : b ∈ l ++ [b] := List.mem_append_right _ (List.mem_singleton.mpr rfl)
  have hl : ∀ c ∈ l, c ∈ l ++ [b] := fun c hc => List.mem_append_left _ hc
  have hready := ready_lastLinked helf fun c hc => hlinked c (hl c hc)
  have hready' := ready_lastLinked helf hlinked
  obtain ⟨ph, hph⟩ := hready'.first
  obtain ⟨cur, hrun, hcur⟩ := builds_run (.inl rfl) helf (fun c hc => hlinked c (hl c hc))
    fun c hc => hn c (hl c hc)
  have hstep := Build.step_eq hcur hready (hn b hb) (hlast ▸ hph)
  refine ⟨ph, hph, ?_, loads_patched hready' hph (hn b hb)⟩
  rw [hlast]
  exact run_snoc_some.mpr ⟨cur, hrun, hstep⟩

theorem smallElf_first {ph : ProgramHeader} (h : First smallElf (4 : Nat) ph) :
    ph = ⟨1, 84, 0x08000000, 0x08000000, 8⟩ := by
  obtain ⟨i, t, ht, hi, he, _⟩ := first_iff_stopsAt.mp h
  obtain rfl : (⟨52, 32, 1⟩ : PhTable) = t := Option.some.inj ht
  obtain rfl := Nat.lt_one_iff.mp hi
  exact (Option.some.inj he).symm

theorem smallElf_ready : Ready 4 smallElf := by
  refine ⟨smallElf_wellFormed, ⟨⟨1, 84, 0x08000000, 0x08000000, 8⟩, ?_⟩, ?_⟩
  · exact ⟨⟨52, 32, 1⟩, rfl, 0, Nat.zero_lt_one, rfl, ⟨rfl, by decide⟩,
      fun m hm => absurd hm (Nat.not_lt_zero m)⟩
  · intro t ph ht hph j h1 _ hj
    obtain rfl := smallElf_first hph
    obtain rfl : (⟨52, 32, 1⟩ : PhTable) = t := Option.some.inj ht
    -- the tables end where the segment begins
    have h1 : 84 ≤ j := h1
    rcases hj with hj | hj
    · have hj : j < 52 := hj
      omega
    · have hj : j < 52 + 1 * 32 := hj.2
      omega

/-- two builds without a link, each with its own signed image -/
def earlierBuilds : List Build :=
  [⟨none, [0x3D, 0xB8, 0xF3, 0x96, 5, 6, 7, 8, 9]⟩, ⟨none, [0x3D, 0xB8, 0xF3, 0x97, 5, 6, 7, 8, 9]⟩]

/-- a link, with the signed image of what it linked -/
def lastBuild : Build := ⟨some smallElf, [0x3D, 0xB8, 0xF3, 0x98, 5, 6, 7, 8, 9]⟩

theorem builds_patched_lastBuild :
    ∃ ph cur, First smallElf (4 : Nat) ph ∧
      run (Build.step 4) smallElf (earlierBuilds ++ [lastBuild]) = some cur ∧
      ph.loads cur = [0x3D, 0xB8, 0xF3, 0x98, 5, 6, 7, 8] := by
  have hlinked : ∀ c ∈ earlierBuilds ++ [lastBuild], ∀ e, c.linked = some e → Ready 4 e := by
    intro c hc e he
    rcases List.mem_append.mp hc with hc | hc
    · have hnone : ∀ c ∈ earlierBuilds, c.linked = none := by decide
      rw [hnone c hc] at he
      cases he
    · rw [List.mem_singleton.mp hc] at he
      exact Option.some.inj he ▸ smallElf_ready
  obtain ⟨ph, hph, hrun, hloads⟩ := builds_patched 4 smallElf earlierBuilds lastBuild
    smallElf_ready hlinked (by decide)
  obtain rfl := smallElf_first hph
  have hbody : ∀ j < 8, 4 ≤ j → smallElf[84 + j]? = lastBuild.signedBin[j]? := by decide
  exact ⟨_, _, hph, hrun, hloads fun j h1 h2 => hbody j h2 h1⟩

end CCU
