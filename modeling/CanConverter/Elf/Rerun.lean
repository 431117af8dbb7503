import CanConverter.Elf.Patch

/-!
# The patch on a file that is patched already

The script is run on every build, so it parses what its last run wrote.

* `WellFormed`          a 32-bit little-endian ELF file with its program header table and its
                        segments within the file;
* `Stable`              a run leaves the tables alone, and the next one finds the same segment and
                        changes nothing;
* `Undisturbed`         the header does not change what the tables hold;
* `patch_stable_iff`    a run is stable exactly then.
-/

namespace CCU

/-- `sizeof(Elf32_Ehdr)` -/
def elfHeaderSize : Nat := 52

/-- `sizeof(Elf32_Phdr)` -/
def programHeaderSize : Nat := 32

/-- a position of the program header table -/
def PhTable.Holds (t : PhTable) (j : Nat) : Prop :=
  t.ePhoff ≤ j ∧ j < t.ePhoff + t.ePhnum * t.ePhentsize

/-- a position of the ELF header or of the program header table -/
def PhTable.Parsed (t : PhTable) (j : Nat) : Prop := j < elfHeaderSize ∨ t.Holds j

/-- the bytes of the ELF header -/
def elfHeader (elf : List UInt8) : List UInt8 := elf.take elfHeaderSize

/-- the bytes of the program header table -/
def PhTable.bytes (t : PhTable) (elf : List UInt8) : List UInt8 :=
  (elf.drop t.ePhoff).take (t.ePhnum * t.ePhentsize)

structure WellFormed (elf : List UInt8) : Prop where
  ident : elf.take 7 = [0x7F, 0x45, 0x4C, 0x46, 1, 1, 1]
  header : elfHeaderSize ≤ elf.length
  entries : ∀ t, readPhTable elf = some t → 0 < t.ePhnum → t.ePhentsize = programHeaderSize
  table : ∀ t, readPhTable elf = some t → t.ePhoff + t.ePhnum * t.ePhentsize ≤ elf.length
  segments : SegmentsWithin elf

/-- the loop stops at the entry `i`, which is `ph` -/
def StopsAt (elf : List UInt8) (headerSize : Int) (i : Nat) (ph : ProgramHeader) : Prop :=
  ∃ t, readPhTable elf = some t ∧ i < t.ePhnum ∧ t.entry elf i = some ph ∧ ph.Suits headerSize ∧
    ∀ m < i, ∃ ph', t.entry elf m = some ph' ∧ ¬ ph'.Suits headerSize

/-- **a stable patch**: after a success the ELF header and the program header table are as before and
the file is well-formed, and the next run succeeds, stops at the same entry and changes nothing -/
def Stable (elf header : List UInt8) : Prop :=
  let r := patchElf elf header header.length
  r.success = true →
    elfHeader r.elfFile = elfHeader elf ∧
    (∀ t, readPhTable elf = some t → t.bytes r.elfFile = t.bytes elf) ∧
    WellFormed r.elfFile ∧
    patchElf r.elfFile header header.length = ⟨true, r.elfFile⟩ ∧
    ∀ i ph, StopsAt elf header.length i ph → StopsAt r.elfFile header.length i ph

/-- where the bytes to be patched are part of the ELF header or of the program header table, the
header holds the bytes that stand there -/
def Undisturbed (elf header : List UInt8) : Prop :=
  ∀ t ph, readPhTable elf = some t → First elf header.length ph →
    ∀ j, ph.pOffset ≤ j → j < ph.pOffset + header.length → t.Parsed j →
      header[j - ph.pOffset]? = elf[j]?

section
variable {elf elf' header : List UInt8} {headerSize : Int} {ph : ProgramHeader} {t : PhTable}
  {i : Nat}

theorem first_iff_stopsAt : First elf headerSize ph ↔ ∃ i, StopsAt elf headerSize i ph := by
  constructor
  · rintro ⟨t, ht, i, hi, he, hs, hbefore⟩
    rw [Nat.zero_add] at he
    refine ⟨i, t, ht, hi, he, hs, fun m hm => ?_⟩
    obtain ⟨ph', he', hs'⟩ := hbefore m hm
    rw [Nat.zero_add] at he'
    exact ⟨ph', he', hs'⟩
  · rintro ⟨i, t, ht, hi, he, hs, hbefore⟩
    refine ⟨t, ht, i, hi, by rwa [Nat.zero_add], hs, fun m hm => ?_⟩
    rw [Nat.zero_add]
    exact hbefore m hm

/-! ## files that agree on the tables -/

/-- what a run parses, and the length -/
structure Agree (elf elf' : List UInt8) (t : PhTable) : Prop where
  length_eq : elf'.length = elf.length
  parsed : ∀ j, t.Parsed j → elf'[j]? = elf[j]?

theorem unpackFrom_congr {off n : Nat} (hlen : elf'.length = elf.length)
    (h : ∀ j, off ≤ j → j < off + n → elf'[j]? = elf[j]?) :
    unpackFrom elf' off n = unpackFrom elf off n := by
  unfold unpackFrom
  rw [hlen, Slice.take_drop_eq_iff.mpr h]

theorem Agree.elfHeader_eq (h : Agree elf elf' t) : elfHeader elf' = elfHeader elf := by
  have hslice := (Slice.take_drop_eq_iff (a := 0) (n := elfHeaderSize)).mpr
    fun j _ hj => h.parsed j (.inl (Nat.zero_add elfHeaderSize ▸ hj))
  exact hslice

theorem Agree.bytes_eq (h : Agree elf elf' t) : t.bytes elf' = t.bytes elf :=
  Slice.take_drop_eq_iff.mpr fun j h1 h2 => h.parsed j (.inr ⟨h1, h2⟩)

theorem Agree.readPhTable_eq (h : Agree elf elf' t) : readPhTable elf' = readPhTable elf := by
  have hread : ∀ off n, off + n ≤ elfHeaderSize → unpackFrom elf' off n = unpackFrom elf off n := by
    intro off n hle
    exact unpackFrom_congr h.length_eq fun j _ hj => h.parsed j (.inl (by omega))
  unfold readPhTable unpackU32 unpackU16
  rw [hread _ _ (by decide), hread _ _ (by decide), hread _ _ (by decide)]

theorem Agree.entry_eq (h : Agree elf elf' t) (hsize : t.ePhentsize = programHeaderSize)
    (hi : i < t.ePhnum) : t.entry elf' i = t.entry elf i := by
  have hsize : t.ePhentsize = 32 := hsize
  unfold PhTable.entry unpackProgramHeader
  rw [unpackFrom_congr h.length_eq fun j h1 h2 => h.parsed j (.inr ⟨?_, ?_⟩)]
  · exact Nat.le_trans (Nat.le_add_right _ _) h1
  · rw [hsize] at h1 h2 ⊢
    omega

theorem Agree.stopsAt (h : Agree elf elf' t) (hwf : WellFormed elf)
    (ht : readPhTable elf = some t) (hs : StopsAt elf headerSize i ph) :
    StopsAt elf' headerSize i ph := by
  obtain ⟨t', ht', hi, he, hsuits, hbefore⟩ := hs
  obtain rfl := Option.some.inj (ht.symm.trans ht')
  have hsize := hwf.entries t ht (Nat.zero_lt_of_lt hi)
  refine ⟨t, h.readPhTable_eq.trans ht, hi, (h.entry_eq hsize hi).trans he, hsuits, ?_⟩
  intro m hm
  rw [h.entry_eq hsize (Nat.lt_trans hm hi)]
  exact hbefore m hm

theorem Agree.wellFormed (h : Agree elf elf' t) (hwf : WellFormed elf)
    (ht : readPhTable elf = some t) : WellFormed elf' := by
  have hread := h.readPhTable_eq
  refine ⟨?_, h.length_eq ▸ hwf.header, ?_, ?_, ?_⟩
  · have hident := congrArg (List.take 7) h.elfHeader_eq
    unfold elfHeader elfHeaderSize at hident
    rw [List.take_take, List.take_take] at hident
    exact hident.trans hwf.ident
  · rw [hread]
    exact hwf.entries
  · rw [hread, h.length_eq]
    exact hwf.table
  · intro t' ht' i hi ph he hload
    rw [hread] at ht'
    obtain rfl := Option.some.inj (ht.symm.trans ht')
    have hsize := hwf.entries t ht (Nat.zero_lt_of_lt hi)
    rw [h.entry_eq hsize hi] at he
    rw [h.length_eq]
    exact hwf.segments t ht i hi ph he hload

/-! ## a run and the next -/

theorem readHeader_length (header : List UInt8) :
    readHeader header header.length = some header := by
  unfold readHeader
  rw [if_neg (by omega), if_neg (by omega), Int.toNat_natCast, List.take_length]

theorem patchElf_stops (h : First elf header.length ph) :
    patchElf elf header header.length =
      ⟨true, Slice.assign elf ph.pOffset (ph.pOffset + header.length : Nat) header⟩ := by
  rw [patchElf_first (readHeader_length header) h, patch_eq]

theorem Undisturbed.agree (h : Undisturbed elf header) (hseg : SegmentsWithin elf)
    (ht : readPhTable elf = some t) (hph : First elf header.length ph) :
    Agree elf (Slice.assign elf ph.pOffset (ph.pOffset + header.length : Nat) header) t := by
  have hb := hph.within hseg
  refine ⟨Slice.length_assign_same hb, fun j hj => ?_⟩
  by_cases hin : ph.pOffset ≤ j ∧ j < ph.pOffset + header.length
  · rw [Slice.getElem?_assign_mem hb hin.1 hin.2]
    exact h t ph ht hph j hin.1 hin.2 hj
  · exact Slice.getElem?_assign_not_mem hb hin

theorem Undisturbed.stable (h : Undisturbed elf header) (hwf : WellFormed elf) :
    Stable elf header := by
  intro hr
  by_cases hfirst : ∃ ph, First elf header.length ph
  · obtain ⟨ph, hph⟩ := hfirst
    obtain ⟨t, ht, _⟩ := id hph
    have hagree := h.agree hwf.segments ht hph
    have hstops : ∀ i ph', StopsAt elf header.length i ph' →
        StopsAt (Slice.assign elf ph.pOffset (ph.pOffset + header.length : Nat) header)
          header.length i ph' := fun _ _ hs => hagree.stopsAt hwf ht hs
    obtain ⟨i, hi⟩ := first_iff_stopsAt.mp hph
    have hagain := patchElf_stops (first_iff_stopsAt.mpr ⟨i, hstops i ph hi⟩)
    rw [Slice.assign_assign (hph.within hwf.segments)] at hagain
    rw [patchElf_stops hph]
    refine ⟨hagree.elfHeader_eq, ?_, hagree.wellFormed hwf ht, hagain, hstops⟩
    intro t' ht'
    obtain rfl := Option.some.inj (ht.symm.trans ht')
    exact hagree.bytes_eq
  · have hnone : patchElf elf header header.length = ⟨false, elf⟩ :=
      patchElf_none fun ph hph => hfirst ⟨ph, hph⟩
    rw [hnone] at hr
    cases hr

/-- a run that leaves the tables alone wrote into them what they held -/
theorem Stable.undisturbed (h : Stable elf header) (hwf : WellFormed elf) :
    Undisturbed elf header := by
  intro t ph ht hph j h1 h2 hj
  have hrun := patchElf_stops hph
  unfold Stable at h
  rw [hrun] at h
  obtain ⟨hheader, hbytes, _⟩ := h rfl
  rw [← Slice.getElem?_assign_mem (hph.within hwf.segments) h1 h2]
  rcases hj with hj | hj
  · exact (Slice.take_drop_eq_iff (a := 0)).mp hheader j (Nat.zero_le j)
      (Nat.lt_of_lt_of_eq hj (Nat.zero_add _).symm)
  · exact Slice.take_drop_eq_iff.mp (hbytes t ht) j hj.1 hj.2

end

/-- **A patched file stays an ELF file that the next run leaves as it is exactly if the bytes that are
patched are no part of the ELF header or of the program header table, or are there already.** -/
theorem patch_stable_iff (elf header : List UInt8) (hwf : WellFormed elf) :
    Stable elf header ↔ Undisturbed elf header :=
  ⟨fun h => h.undisturbed hwf, fun h => h.stable hwf⟩

/-- a file with one program header right after the ELF header -/
theorem wellFormed_of_single {elf : List UInt8}
    (hident : elf.take 7 = [0x7F, 0x45, 0x4C, 0x46, 1, 1, 1]) (hlen : 84 ≤ elf.length)
    (htable : readPhTable elf = some ⟨52, 32, 1⟩) (hseg : SegmentsWithin elf) : WellFormed elf := by
  refine ⟨hident, Nat.le_trans (by decide) hlen, ?_, ?_, hseg⟩
  · intro t ht _
    obtain rfl := Option.some.inj (htable.symm.trans ht)
    rfl
  · intro t ht
    obtain rfl := Option.some.inj (htable.symm.trans ht)
    exact hlen

theorem smallElf_wellFormed : WellFormed smallElf :=
  wellFormed_of_single (by decide) (by decide) rfl smallElf_segments

/-- a header of eight bytes for the segment behind the tables -/
theorem patch_stable_smallElf :
    (patchElf smallElf [0x3D, 0xB8, 0xF3, 0x96, 0, 0, 0, 0] 8).success = true ∧
      Stable smallElf [0x3D, 0xB8, 0xF3, 0x96, 0, 0, 0, 0] := by
  refine ⟨by decide +kernel, (patch_stable_iff _ _ smallElf_wellFormed).mpr ?_⟩
  intro t ph ht hph j h1 _ hj
  obtain rfl : (⟨52, 32, 1⟩ : PhTable) = t := Option.some.inj ht
  obtain ⟨i, t, ht, hi, he, _⟩ := first_iff_stopsAt.mp hph
  obtain rfl : (⟨52, 32, 1⟩ : PhTable) = t := Option.some.inj ht
  obtain rfl := Nat.lt_one_iff.mp hi
  obtain rfl : (⟨1, 84, 0x08000000, 0x08000000, 8⟩ : ProgramHeader) = ph := Option.some.inj he
  -- the tables end where the segment begins
  have h1 : 84 ≤ j := h1
  rcases hj with hj | hj
  · have hj : j < 52 := hj
    omega
  · have hj : j < 52 + 1 * 32 := hj.2
    omega

/-- an ELF file whose `PT_LOAD` segment is the whole file -/
def wholeElf : List UInt8 :=
  smallElf.take 56 ++ [0, 0, 0, 0, 0, 0, 0, 8, 0, 0, 0, 8] ++     -- p_offset .. p_paddr
  [94, 0, 0, 0, 94, 0, 0, 0, 5, 0, 0, 0, 4, 0, 0, 0] ++           -- p_filesz .. p_align
  smallElf.drop 84

theorem wholeElf_wellFormed : WellFormed wholeElf := by
  refine wellFormed_of_single (by decide) (by decide) rfl ?_
  intro t ht i hi ph he _
  obtain rfl : (⟨52, 32, 1⟩ : PhTable) = t := Option.some.inj ht
  obtain rfl := Nat.lt_one_iff.mp hi
  obtain rfl : (⟨1, 0, 0x08000000, 0x08000000, 94⟩ : ProgramHeader) = ph := Option.some.inj he
  decide

/-- an MCUboot image header -/
def mcubootHeader : List UInt8 :=
  [0x3D, 0xB8, 0xF3, 0x96, 0, 0, 0, 0, 32, 0, 0, 0, 62, 0, 0, 0] ++ -- ih_magic .. ih_img_size
  [0, 0, 0, 0, 1, 0, 0, 0, 0, 0, 0, 0, 0, 0, 0, 0]                  -- ih_flags .. pad

/-- the header overwrites the ELF header, and the next run finds no segment -/
theorem patch_not_stable :
    WellFormed wholeElf ∧
      patchElf wholeElf mcubootHeader 32 = ⟨true, mcubootHeader ++ wholeElf.drop 32⟩ ∧
      patchElf (mcubootHeader ++ wholeElf.drop 32) mcubootHeader 32 =
        ⟨false, mcubootHeader ++ wholeElf.drop 32⟩ ∧
      ¬ Stable wholeElf mcubootHeader := by
  have hrun : patchElf wholeElf mcubootHeader mcubootHeader.length =
      ⟨true, mcubootHeader ++ wholeElf.drop 32⟩ := by decide +kernel
  refine ⟨wholeElf_wellFormed, hrun, by decide +kernel, fun h => ?_⟩
  unfold Stable at h
  rw [hrun] at h
  exact absurd (h rfl).1 (by decide)

end CCU
