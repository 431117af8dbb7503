import Mathlib.Algebra.Group.Nat.Defs
import CanConverter.Lib.Slice

/-!
# tools/patch_elf_mcuboot_header.py

The script reads the header file and the ELF file, looks for the first `PT_LOAD` entry of the program
header table with room for the header, assigns the header to a slice of the bytes, and writes the
file back.  Every failure comes before the write.

`header` is what `read(header_size)` returned.  It is not compared with `header_size`, and a slice
assignment of another length moves everything after the slice.

* `readHeader`        `f.read(header_size)`;
* `patchLoop`         the loop over the program headers;
* `First`             the entry the loop stops at;
* `Clean`             a run of the script patches the slice alone, or nothing;
* `clean_iff`         when it holds.
-/

namespace CCU

/-- the number of the little-endian bytes -/
def ofLeBytes : List UInt8 → Nat
  | [] => 0
  | b :: l => b.toNat + 256 * ofLeBytes l

/-- `n` bytes at `off` for `struct.unpack_from`, `none` where it raises -/
def unpackFrom (buffer : List UInt8) (off n : Nat) : Option (List UInt8) :=
  if off + n ≤ buffer.length then some ((buffer.drop off).take n) else none

/-- `struct.unpack_from("<I", ..)` -/
def unpackU32 (buffer : List UInt8) (off : Nat) : Option Nat := (unpackFrom buffer off 4).map ofLeBytes

/-- `struct.unpack_from("<H", ..)` -/
def unpackU16 (buffer : List UInt8) (off : Nat) : Option Nat := (unpackFrom buffer off 2).map ofLeBytes

/-- a program header, as far as the script reads it -/
structure ProgramHeader where
  pType : Nat
  pOffset : Nat
  pVaddr : Nat
  pPaddr : Nat
  pFilesz : Nat
deriving DecidableEq

/-- `struct.unpack_from("<IIIII", ..)` -/
def unpackProgramHeader (elf : List UInt8) (off : Nat) : Option ProgramHeader :=
  (unpackFrom elf off 20).map fun b =>
    { pType := ofLeBytes (b.take 4)
      pOffset := ofLeBytes ((b.drop 4).take 4)
      pVaddr := ofLeBytes ((b.drop 8).take 4)
      pPaddr := ofLeBytes ((b.drop 12).take 4)
      pFilesz := ofLeBytes ((b.drop 16).take 4) }

def ptLoad : Nat := 1

/-- `f.read(n)` on a binary file: `-1` reads all of it, another negative number raises -/
def readHeader (file : List UInt8) (n : Int) : Option (List UInt8) :=
  if n < -1 then none else if n = -1 then some file else some (file.take n.toNat)

/-- where the program header table is -/
structure PhTable where
  ePhoff : Nat
  ePhentsize : Nat
  ePhnum : Nat
deriving DecidableEq

def readPhTable (elf : List UInt8) : Option PhTable :=
  (unpackU32 elf 0x1C).bind fun ePhoff =>
    (unpackU16 elf 0x2A).bind fun ePhentsize =>
      (unpackU16 elf 0x2C).map fun ePhnum => ⟨ePhoff, ePhentsize, ePhnum⟩

/-- the `i`-th entry of the table, `none` where reading it raises -/
def PhTable.entry (t : PhTable) (elf : List UInt8) (i : Nat) : Option ProgramHeader :=
  unpackProgramHeader elf (t.ePhoff + i * t.ePhentsize)

/-- the test of the loop -/
def ProgramHeader.Suits (ph : ProgramHeader) (headerSize : Int) : Prop :=
  ph.pType = ptLoad ∧ headerSize ≤ ph.pFilesz

instance (ph : ProgramHeader) (headerSize : Int) : Decidable (ph.Suits headerSize) :=
  inferInstanceAs (Decidable (_ ∧ _))

/-- `elf[p_offset : p_offset + header_size] = header` -/
def ProgramHeader.patch (ph : ProgramHeader) (headerSize : Int) (header elf : List UInt8) :
    List UInt8 := Slice.assign elf ph.pOffset (ph.pOffset + headerSize) header

/-- the loop from the entry `i` on with `n` entries left: `none` where it raises, else the patched
bytes, if any -/
def patchLoop (t : PhTable) (headerSize : Int) (header elf : List UInt8) :
    Nat → Nat → Option (Option (List UInt8))
  | _, 0 => some none
  | i, n + 1 =>
    match t.entry elf i with
    | none => none
    | some ph =>
      if ph.Suits headerSize then some (some (ph.patch headerSize header elf))
      else patchLoop t headerSize header elf (i + 1) n

/-- a run of the script: whether it succeeded, and the ELF file after it -/
structure PatchRun where
  success : Bool
  elfFile : List UInt8
deriving DecidableEq

/-- the script; it writes the file only at its end -/
def patchElf (elfFile headerFile : List UInt8) (headerSize : Int) : PatchRun :=
  match readHeader headerFile headerSize with
  | none => ⟨false, elfFile⟩
  | some header =>
    match readPhTable elfFile with
    | none => ⟨false, elfFile⟩
    | some t =>
      match patchLoop t headerSize header elfFile 0 t.ePhnum with
      | none => ⟨false, elfFile⟩
      | some none => ⟨false, elfFile⟩ -- "No suitable PT_LOAD segment found"
      | some (some elf) => ⟨true, elf⟩

/-! ## the entry the loop stops at -/

/-- among `n` entries from `i` on, `ph` is the first that suits, and all before it can be read -/
def PhTable.FirstFrom (t : PhTable) (elf : List UInt8) (headerSize : Int) (i n : Nat)
    (ph : ProgramHeader) : Prop :=
  ∃ j < n, t.entry elf (i + j) = some ph ∧ ph.Suits headerSize ∧
    ∀ m < j, ∃ ph', t.entry elf (i + m) = some ph' ∧ ¬ ph'.Suits headerSize

section
variable {t : PhTable} {elf header : List UInt8} {headerSize : Int} {i n : Nat} {ph : ProgramHeader}

theorem PhTable.not_firstFrom_zero : ¬ t.FirstFrom elf headerSize i 0 ph :=
  fun ⟨_, hj, _⟩ => Nat.not_lt_zero _ hj

theorem PhTable.firstFrom_succ :
    t.FirstFrom elf headerSize i (n + 1) ph ↔
      (t.entry elf i = some ph ∧ ph.Suits headerSize) ∨
      ∃ ph', t.entry elf i = some ph' ∧ ¬ ph'.Suits headerSize ∧
        t.FirstFrom elf headerSize (i + 1) n ph := by
  constructor
  · rintro ⟨j, hj, he, hs, hbefore⟩
    cases j with
    | zero => exact .inl ⟨he, hs⟩
    | succ j =>
      obtain ⟨ph', he', hs'⟩ := hbefore 0 (Nat.zero_lt_succ j)
      refine .inr ⟨ph', he', hs', j, Nat.lt_of_succ_lt_succ hj, ?_, hs, fun m hm => ?_⟩
      · rw [show i + 1 + j = i + (j + 1) by omega]
        exact he
      · rw [show i + 1 + m = i + (m + 1) by omega]
        exact hbefore (m + 1) (Nat.succ_lt_succ hm)
  · rintro (⟨he, hs⟩ | ⟨ph', he', hs', j, hj, he, hs, hbefore⟩)
    · exact ⟨0, Nat.zero_lt_succ n, he, hs, fun m hm => absurd hm (Nat.not_lt_zero m)⟩
    · refine ⟨j + 1, Nat.succ_lt_succ hj, ?_, hs, fun m hm => ?_⟩
      · rw [show i + (j + 1) = i + 1 + j by omega]
        exact he
      · cases m with
        | zero => exact ⟨ph', he', hs'⟩
        | succ m =>
          rw [show i + (m + 1) = i + 1 + m by omega]
          exact hbefore m (Nat.lt_of_succ_lt_succ hm)

theorem patchLoop_first (h : t.FirstFrom elf headerSize i n ph) :
    patchLoop t headerSize header elf i n = some (some (ph.patch headerSize header elf)) := by
  induction n generalizing i with
  | zero => exact absurd h PhTable.not_firstFrom_zero
  | succ n ih =>
    unfold patchLoop
    rcases PhTable.firstFrom_succ.mp h with ⟨he, hs⟩ | ⟨ph', he, hs, hrest⟩
    · rw [he]
      exact if_pos hs
    · rw [he]
      exact (if_neg hs).trans (ih hrest)

theorem patchLoop_none (h : ∀ ph, ¬ t.FirstFrom elf headerSize i n ph) (elf' : List UInt8) :
    patchLoop t headerSize header elf i n ≠ some (some elf') := by
  induction n generalizing i with
  | zero => exact nofun
  | succ n ih =>
    unfold patchLoop
    cases he : t.entry elf i with
    | none => exact nofun
    | some ph =>
      by_cases hs : ph.Suits headerSize
      · exact absurd (PhTable.firstFrom_succ.mpr (.inl ⟨he, hs⟩)) (h ph)
      · show (if ph.Suits headerSize then _ else _) ≠ _
        rw [if_neg hs]
        refine ih fun ph' hf => h ph' (PhTable.firstFrom_succ.mpr (.inr ⟨ph, he, hs, hf⟩))

end

/-- the first `PT_LOAD` entry in table order with `p_filesz >= header_size`, when the loop comes to
it -/
def First (elf : List UInt8) (headerSize : Int) (ph : ProgramHeader) : Prop :=
  ∃ t, readPhTable elf = some t ∧ t.FirstFrom elf headerSize 0 t.ePhnum ph

/-- the `PT_LOAD` segments lie within the file -/
def SegmentsWithin (elf : List UInt8) : Prop :=
  ∀ t, readPhTable elf = some t → ∀ i < t.ePhnum, ∀ ph, t.entry elf i = some ph →
    ph.pType = ptLoad → ph.pOffset + ph.pFilesz ≤ elf.length

/-- **a clean patch**: a success replaces the bytes of the slice by as many bytes of the header file
and touches nothing else, a failure leaves the file as it was -/
def Clean (elf headerFile : List UInt8) (headerSize : Int) : Prop :=
  let r := patchElf elf headerFile headerSize
  (r.success = true → ∃ ph, First elf headerSize ph ∧ r.elfFile.length = elf.length ∧
    (∀ j : Nat, ¬ ((ph.pOffset : Int) ≤ j ∧ (j : Int) < ph.pOffset + headerSize) →
      r.elfFile[j]? = elf[j]?) ∧
    ∃ bytes, bytes <:+: headerFile ∧ (bytes.length : Int) = headerSize ∧
      (r.elfFile.drop ph.pOffset).take bytes.length = bytes) ∧
  (r.success = false → r.elfFile = elf)

section
variable {elf headerFile header : List UInt8} {headerSize : Int} {ph : ProgramHeader}

/-! ## what a run does -/

theorem patchElf_first (hr : readHeader headerFile headerSize = some header)
    (h : First elf headerSize ph) :
    patchElf elf headerFile headerSize = ⟨true, ph.patch headerSize header elf⟩ := by
  obtain ⟨t, ht, hf⟩ := h
  have hloop : patchLoop t headerSize header elf 0 t.ePhnum = _ := patchLoop_first hf
  simp only [patchElf, hr, ht, hloop]

theorem patchElf_unread (hr : readHeader headerFile headerSize = none) :
    patchElf elf headerFile headerSize = ⟨false, elf⟩ := by
  simp only [patchElf, hr]

theorem patchElf_none (h : ∀ ph, ¬ First elf headerSize ph) :
    patchElf elf headerFile headerSize = ⟨false, elf⟩ := by
  cases hr : readHeader headerFile headerSize with
  | none => exact patchElf_unread hr
  | some header =>
    cases ht : readPhTable elf with
    | none => simp only [patchElf, hr, ht]
    | some t =>
      have hloop : ∀ elf', patchLoop t headerSize header elf 0 t.ePhnum ≠ some (some elf') :=
        patchLoop_none fun ph hf => h ph ⟨t, ht, hf⟩
      simp only [patchElf, hr, ht]
      split
      · rfl
      · rfl
      · rename_i elf' he
        exact absurd he (hloop elf')

theorem clean_of_failure (h : patchElf elf headerFile headerSize = ⟨false, elf⟩) :
    Clean elf headerFile headerSize := by
  unfold Clean
  rw [h]
  exact ⟨nofun, fun _ => rfl⟩

/-- the slice of the entry lies within the file -/
theorem First.within (hseg : SegmentsWithin elf) {n : Nat} (h : First elf n ph) :
    ph.pOffset + n ≤ elf.length := by
  obtain ⟨t, ht, j, hj, he, ⟨hload, hsize⟩, _⟩ := h
  have hin := hseg t ht (0 + j) (by omega) ph he hload
  omega

theorem patch_eq (ph : ProgramHeader) (n : Nat) (header elf : List UInt8) :
    ph.patch n header elf = Slice.assign elf ph.pOffset (ph.pOffset + n : Nat) header := rfl

theorem clean_of_enough {n : Nat} (hseg : SegmentsWithin elf) (h : First elf n ph)
    (hn : n ≤ headerFile.length) : Clean elf headerFile n := by
  have hb := h.within hseg
  have hr : readHeader headerFile n = some (headerFile.take n) := by
    unfold readHeader
    rw [if_neg (by omega), if_neg (by omega), Int.toNat_natCast]
  have htake : (headerFile.take n).length = ph.pOffset + n - ph.pOffset := by
    rw [List.length_take]
    omega
  have hle : ph.pOffset ≤ ph.pOffset + n := Nat.le_add_right _ _
  unfold Clean
  rw [patchElf_first hr h, patch_eq]
  refine ⟨fun _ => ⟨ph, h, ?_, ?_, headerFile.take n, ?_, ?_, ?_⟩, nofun⟩
  · have hlen := Slice.length_assign hle hb (headerFile.take n)
    show (Slice.assign elf _ _ _).length = _
    omega
  · intro j hj
    exact Slice.getElem?_assign hle hb htake (by omega)
  · exact (List.take_prefix n headerFile).isInfix
  · rw [htake]
    omega
  · have hslice := Slice.slice_assign hle hb htake
    rw [htake]
    exact hslice

/-- a header file that is too short moves everything after the slice -/
theorem not_clean_of_short {n : Nat} (hseg : SegmentsWithin elf) (h : First elf n ph)
    (hn : headerFile.length < n) : ¬ Clean elf headerFile n := by
  have hb := h.within hseg
  have hr : readHeader headerFile n = some (headerFile.take n) := by
    unfold readHeader
    rw [if_neg (by omega), if_neg (by omega), Int.toNat_natCast]
  intro hclean
  unfold Clean at hclean
  rw [patchElf_first hr h, patch_eq] at hclean
  obtain ⟨_, _, hlen, _⟩ := hclean.1 rfl
  have hlen' := Slice.length_assign (Nat.le_add_right ph.pOffset n) hb (headerFile.take n)
  rw [List.length_take] at hlen'
  have hlen : (Slice.assign elf ph.pOffset (ph.pOffset + n : Nat) (headerFile.take n)).length =
    elf.length := hlen
  omega

/-- `read(-1)` reads the whole header file -/
theorem not_clean_of_minus (h : First elf (-1) ph) : ¬ Clean elf headerFile (-1) := by
  intro hclean
  have hr : readHeader headerFile (-1) = some headerFile := rfl
  unfold Clean at hclean
  rw [patchElf_first hr h] at hclean
  obtain ⟨_, _, _, _, bytes, _, hlen, _⟩ := hclean.1 rfl
  omega

end

/-- **The patch touches nothing else and fails cleanly exactly if the header file has the
`header_size` bytes, whenever the loop comes to an entry to patch**; `-1` is no size, but makes
`read` read everything. -/
theorem clean_iff (elf headerFile : List UInt8) (headerSize : Int) (hseg : SegmentsWithin elf) :
    Clean elf headerFile headerSize ↔
      ((∃ ph, First elf headerSize ph) → headerSize ≠ -1 ∧ headerSize ≤ headerFile.length) := by
  by_cases hfirst : ∃ ph, First elf headerSize ph
  · obtain ⟨ph, hph⟩ := hfirst
    have hiff : ((∃ ph, First elf headerSize ph) →
        headerSize ≠ -1 ∧ headerSize ≤ headerFile.length) ↔
        headerSize ≠ -1 ∧ headerSize ≤ headerFile.length :=
      ⟨fun h => h ⟨ph, hph⟩, fun h _ => h⟩
    rw [hiff]
    by_cases hneg : headerSize < 0
    · by_cases hm : headerSize = -1
      · subst hm
        exact ⟨fun h => absurd h (not_clean_of_minus hph), fun h => absurd rfl h.1⟩
      · have hr : readHeader headerFile headerSize = none := if_pos (by omega)
        exact ⟨fun _ => ⟨hm, by omega⟩, fun _ => clean_of_failure (patchElf_unread hr)⟩
    · obtain ⟨n, rfl⟩ := Int.eq_ofNat_of_zero_le (Int.not_lt.mp hneg)
      rcases Nat.lt_or_ge headerFile.length n with hshort | henough
      · exact ⟨fun h => absurd h (not_clean_of_short hseg hph hshort), fun h => by omega⟩
      · exact ⟨fun _ => ⟨by omega, by omega⟩, fun _ => clean_of_enough hseg hph henough⟩
  · have hnone : ∀ ph, ¬ First elf headerSize ph := fun ph h => hfirst ⟨ph, h⟩
    exact ⟨fun _ h => absurd h hfirst, fun _ => clean_of_failure (patchElf_none hnone)⟩

/-- a 32-bit little-endian ELF file with one `PT_LOAD` segment of eight bytes, and two bytes after
it -/
def smallElf : List UInt8 :=
  [0x7F, 0x45, 0x4C, 0x46, 1, 1, 1, 0, 0, 0, 0, 0, 0, 0, 0, 0] ++ -- e_ident
  [2, 0, 0x28, 0, 1, 0, 0, 0, 0, 0, 0, 0] ++                      -- e_type .. e_entry
  [52, 0, 0, 0, 0, 0, 0, 0, 0, 0, 0, 0] ++                        -- e_phoff, e_shoff, e_flags
  [52, 0, 32, 0, 1, 0, 0, 0, 0, 0, 0, 0] ++                       -- e_ehsize .. e_shstrndx
  [1, 0, 0, 0, 84, 0, 0, 0, 0, 0, 0, 8, 0, 0, 0, 8] ++            -- p_type .. p_paddr
  [8, 0, 0, 0, 8, 0, 0, 0, 5, 0, 0, 0, 4, 0, 0, 0] ++             -- p_filesz .. p_align
  [1, 2, 3, 4, 5, 6, 7, 8, 0xAA, 0xBB]

theorem smallElf_segments : SegmentsWithin smallElf := by
  intro t ht i hi ph he _
  obtain rfl : (⟨52, 32, 1⟩ : PhTable) = t := Option.some.inj ht
  obtain rfl := Nat.lt_one_iff.mp hi
  obtain rfl : (⟨1, 84, 0x08000000, 0x08000000, 8⟩ : ProgramHeader) = ph := Option.some.inj he
  decide

theorem clean_smallElf : Clean smallElf [0xF3, 0xD3, 0x49, 0xA1, 0xFF] 4 :=
  (clean_iff smallElf [0xF3, 0xD3, 0x49, 0xA1, 0xFF] 4 smallElf_segments).mpr
    fun _ => ⟨by decide, by decide⟩

/-- three bytes of header for a size of eight: the file loses five bytes, and the bytes after the
segment move -/
theorem not_clean_smallElf :
    patchElf smallElf [0xF3, 0xD3, 0x49] 8 =
        ⟨true, smallElf.take 84 ++ [0xF3, 0xD3, 0x49, 0xAA, 0xBB]⟩ ∧
      ¬ Clean smallElf [0xF3, 0xD3, 0x49] 8 := by
  have hfirst : First smallElf (8 : Nat) ⟨1, 84, 0x08000000, 0x08000000, 8⟩ :=
    ⟨⟨52, 32, 1⟩, rfl, 0, Nat.zero_lt_one, rfl, ⟨rfl, by decide⟩,
      fun m hm => absurd hm (Nat.not_lt_zero m)⟩
  exact ⟨by decide +kernel, not_clean_of_short smallElf_segments hfirst (by decide)⟩

end CCU
