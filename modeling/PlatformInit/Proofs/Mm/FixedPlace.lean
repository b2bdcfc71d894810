import PlatformInit.Proofs.Mm.Placement

/-!
Where the image of a core goes that is taken to the place recorded in it.

The code region decides about the place alone. An image that begins inside of the region may end
outside of it, and outside of the range, unless the region keeps the room of one image and one
alignment to the end of the range.
-/
set_option autoImplicit false
namespace PlatformInit.Ipl

variable {ω : Type}

def codeSize (c : IplConfig) : Nat := c.fixedPages.toNat * 0x1000

theorem codeSize_lt (c : IplConfig) : codeSize c < 0x100000000000 := by
  have hpages := c.fixedPages.toNat_lt_size
  change _ < 2 ^ 32 at hpages
  rw [codeSize]
  omega

theorem toNat_codeSize (c : IplConfig) : (pagesToSize c.fixedPages.toUInt64).toNat = codeSize c := by
  have hlt := codeSize_lt c
  rw [toNat_pagesToSize, UInt32.toNat_toUInt64]
  refine Nat.mod_eq_of_lt ?_
  change codeSize c < 2 ^ 64
  omega

theorem fixedPlace_inside {c : IplConfig} {p : PeImage} {range : SmramRange} {start : UInt64}
    (h : fixedPlace c p range = .ok (some start)) :
    range.cpuStart.toNat ≤ start.toNat ∧ start.toNat < range.cpuStart.toNat + codeSize c := by
  rw [fixedPlace] at h
  split at h
  · cases h
  rename_i offset _
  dsimp only at h
  by_cases hwraps : range.cpuStart + offset < range.cpuStart
  · rw [if_pos hwraps] at h
    cases h
  rw [if_neg hwraps] at h
  cases hadd : add64 range.cpuStart (pagesToSize c.fixedPages.toUInt64) with
  | error e =>
    rw [hadd] at h
    cases h
  | ok stop =>
    rw [hadd, Except.map, Except.ok.injEq] at h
    have hstop := add64_eq_ok_iff.mp hadd
    rw [toNat_codeSize] at hstop
    by_cases hinside : range.cpuStart + offset < stop
    · rw [if_pos hinside, Option.some.injEq] at h
      subst h
      exact ⟨UInt64.le_iff_toNat_le.mp (UInt64.not_lt.mp hwraps),
        hstop ▸ UInt64.lt_iff_toNat_lt.mp hinside⟩
    · rw [if_neg hinside] at h
      cases h

theorem choosePlace_fixed {c : IplConfig} {p : PeImage} {range : SmramRange} {start : UInt64}
    (h : fixedPlace c p range = .ok (some start)) (index : Nat) (t : SmramTable) :
    choosePlace c p index range t = .ok (start, none) t := by
  rw [choosePlace, h]
  exact (Step.bind_of_ok rfl).trans rfl

theorem Chosen.unique {hobs : HobList} {table table' : SmramTable} {index index' : Nat}
    {range range' : SmramRange} (h : Chosen hobs table index range)
    (h' : Chosen hobs table' index' range') : table' = table ∧ index' = index ∧ range' = range := by
  obtain ⟨hreported, hselected, hrange⟩ := h
  obtain ⟨hreported', hselected', hrange'⟩ := h'
  rw [hreported, Except.ok.injEq] at hreported'
  subst hreported'
  rw [hselected, Except.ok.injEq, Option.some.injEq] at hselected'
  subst hselected'
  rw [hrange, Option.some.injEq] at hrange'
  exact ⟨rfl, rfl, hrange'.symm⟩

/-- The place recorded in the core that the volumes hold is accepted for the chosen range. -/
structure Fixed (reader : PeReader) (c : IplConfig) (volumes : List MappedVolume) (hobs : HobList)
    (table : SmramTable) (index : Nat) (range : SmramRange) (p : PeImage) (start : UInt64) : Prop
    extends Chosen hobs table index range where
  found : ∃ volume image, MappedVolume.findCore volumes = .ok (volume, image) ∧
    reader.parse image = .ok p
  accepted : fixedPlace c p range = .ok (some start)

variable {parts : IplParts ω} {volumes : List MappedVolume} {hobs : HobList} {machine m : Machine ω}
  {table : SmramTable} {index : Nat} {range : SmramRange} {p : PeImage} {start base : UInt64}
  {placed : Bytes}

/-- With an accepted place nothing is carved: the image goes there, and the table stays as it is. -/
theorem Fixed.written (h : Fixed parts.reader parts.config volumes hobs table index range p start)
    (hcall : .writeImage base placed m ∈ loadCalls parts volumes hobs machine) :
    Written parts.reader parts.config volumes hobs machine.newCore.2 base placed m table table.opened
      index range p start none := by
  obtain ⟨table', final, index', range', p', destination, carved, hwritten⟩ := loadCore_writeImage hcall
  obtain ⟨rfl, rfl, rfl⟩ := h.toChosen.unique hwritten.toChosen
  obtain ⟨volume, image, hfound, hparse⟩ := h.found
  have hsame : p' = p := by
    obtain ⟨volume', image', hfound', hparse', -⟩ := hwritten.found
    exact headers_unique hfound hparse hfound' hparse'
  subst hsame
  have hchosen := hwritten.chosen
  rw [choosePlace_fixed h.accepted] at hchosen
  cases hchosen
  exact hwritten

/-- An image that is taken to an accepted place begins in the code region, up to one alignment
behind the place, and nothing is carved for it. It lies in the range if the region leaves room for
it there; no check of the loader sees to that. -/
theorem fixed_image_placed (parts : IplParts ω) (volumes : List MappedVolume) (hobs : HobList)
    (machine : Machine ω)
    (hfixed : Fixed parts.reader parts.config volumes hobs table index range p start)
    (base : UInt64) (placed : Bytes) (m : Machine ω)
    (hcall : .writeImage base placed m ∈ loadCalls parts volumes hobs machine) :
    range.cpuStart.toNat ≤ start.toNat ∧
      start.toNat < range.cpuStart.toNat + codeSize parts.config ∧
      (p.sectionAlignment ≠ 0 → base.toNat % p.sectionAlignment.toNat = 0) ∧
      start.toNat ≤ base.toNat ∧ base.toNat ≤ start.toNat + p.sectionAlignment.toNat ∧
      placed.length = p.sizeOfImage.toNat ∧
      m.publishedRanges machine.newCore.2 = some table.opened.ranges ∧
      (codeSize parts.config + p.sectionAlignment.toNat + p.sizeOfImage.toNat ≤ range.size.toNat →
        range.cpuStart.toNat ≤ base.toNat ∧
          base.toNat + placed.length ≤ range.cpuStart.toNat + range.size.toNat) := by
  have hwritten := hfixed.written hcall
  obtain ⟨habove, hinside⟩ := fixedPlace_inside hfixed.accepted
  obtain ⟨haligned, hlow, hhigh⟩ := aligned_inside hwritten.aligned
  have hplaced : placed.length = p.sizeOfImage.toNat := by
    obtain ⟨_, image, -, -, hplace⟩ := hwritten.found
    exact place_length hplace
  have hcount : table.opened.ranges.length < UInt64.size :=
    Nat.lt_trans (length_opened_lt hfixed.reported) (by decide)
  exact ⟨habove, hinside, haligned, hlow, hhigh, hplaced,
    hwritten.published.publishedRanges_eq hcount, fun hroom => ⟨by omega, by omega⟩⟩

def recordingImage (place : UInt32) : Bytes :=
  le16 PeImage.dosMagic ++ List.replicate 58 0 ++ le32 0x80 ++ List.replicate 64 0 ++
    le32 Bench.PeReading.peMagic ++ le16 0x8664 ++ le16 1 ++ List.replicate 12 0 ++ le16 240 ++ le16 0x22 ++
    le16 0x20B ++ List.replicate 14 0 ++ le32 0x40 ++ List.replicate 12 0 ++ le32 0x10 ++ le32 0x10 ++
    List.replicate 16 0 ++ le32 432 ++ le32 432 ++ List.replicate 44 0 ++ le32 16 ++
    List.replicate 128 0 ++
    [0x2E, 0x64, 0x61, 0x74, 0x61, 0, 0, 0] ++ List.replicate 16 0 ++ le32 place ++
    List.replicate 8 0 ++ le32 0xC0000040

def recordingVolume (place : UInt32) : Bytes :=
  List.replicate 16 0 ++ Guid.fileSystem2.toBytes ++ le64 516 ++ le32 VolumeHeader.magic ++
    le32 0 ++ le16 0x38 ++ List.replicate 5 0 ++ [2] ++
    [1] ++ List.replicate 15 0 ++ le16 0 ++ [MappedVolume.coreFile, 0] ++ leBytes 3 460 ++ [0] ++
    leBytes 3 436 ++ [MappedVolume.imageSection] ++ recordingImage place

def recordedHeaders (place : UInt32) : PeImage :=
  ⟨0xB0, 0x40, 432, 0x10, 432,
    [⟨[0x2E, 0x64, 0x61, 0x74, 0x61, 0, 0, 0], 0, 0, 0, 0, place, 0, 0xC0000040⟩], none⟩

def fixing (pages : UInt32) : IplParts Unit := { obliging with config := ⟨true, pages⟩ }

def oneRange : List SmramRange := [⟨0x7F000000, 0x7F000000, 0x100000, RegionState.closed⟩]

def oneRangeHobs : HobList := [.guidExtension Guid.smramMemory (DescriptorBlock.encode oneRange)]

theorem oneRange_chosen :
    Chosen oneRangeHobs ⟨oneRange⟩ 0 ⟨0x7F000000, 0x7F000000, 0x100000, RegionState.opened⟩ where
  reported := by decide +kernel
  selected := by decide +kernel
  range_eq := by decide +kernel

theorem exists_writeImage (calls : List (IplCall ω)) (h : calls.any IplCall.isWrite = true) :
    ∃ base placed m, .writeImage base placed m ∈ calls := by
  obtain ⟨call, hcall, hwrite⟩ := List.any_eq_true.mp h
  cases call with
  | writeImage base placed m => exact ⟨base, placed, m, hcall⟩
  | _ => cases hwrite

theorem fixed_image_placed_fits :
    Fixed (fixing 255).reader (fixing 255).config [⟨0xFFC00000, recordingVolume 0xFE000⟩] oneRangeHobs
      ⟨oneRange⟩ 0 ⟨0x7F000000, 0x7F000000, 0x100000, RegionState.opened⟩ (recordedHeaders 0xFE000) 0x7F0FE000 ∧
    ∃ base placed m, .writeImage base placed m ∈ loadCalls (fixing 255)
      [⟨0xFFC00000, recordingVolume 0xFE000⟩] oneRangeHobs (.new 0x1000 ()) ∧
      0x7F0FE000 ≤ base.toNat ∧ base.toNat + placed.length ≤ 0x7F000000 + 0x100000 := by
  have hfixed : Fixed (fixing 255).reader (fixing 255).config [⟨0xFFC00000, recordingVolume 0xFE000⟩] oneRangeHobs
      ⟨oneRange⟩ 0 ⟨0x7F000000, 0x7F000000, 0x100000, RegionState.opened⟩ (recordedHeaders 0xFE000)
      0x7F0FE000 :=
    ⟨oneRange_chosen, ⟨0xFFC00000, recordingImage 0xFE000, by decide +kernel, by decide +kernel⟩,
      by decide +kernel⟩
  obtain ⟨base, placed, m, hcall⟩ := exists_writeImage (loadCalls (fixing 255)
    [⟨0xFFC00000, recordingVolume 0xFE000⟩] oneRangeHobs (.new 0x1000 ())) (by decide +kernel)
  obtain ⟨-, -, -, hlow, -, -, -, hroom⟩ :=
    fixed_image_placed (fixing 255) _ _ _ hfixed base placed m hcall
  exact ⟨hfixed, base, placed, m, hcall, hlow, (hroom (by decide)).2⟩

/-- A place near the end of the code region is accepted, and the image ends behind the range. -/
theorem fixed_image_outside : ∃ table index range p start base placed m,
    Fixed (fixing 256).reader (fixing 256).config [⟨0xFFC00000, recordingVolume 0xFFF00⟩] oneRangeHobs
        table index range p start ∧
      .writeImage base placed m ∈ loadCalls (fixing 256) [⟨0xFFC00000, recordingVolume 0xFFF00⟩]
        oneRangeHobs (.new 0x1000 ()) ∧
      range.cpuStart.toNat + range.size.toNat < base.toNat + placed.length := by
  have hfixed : Fixed (fixing 256).reader (fixing 256).config [⟨0xFFC00000, recordingVolume 0xFFF00⟩] oneRangeHobs
      ⟨oneRange⟩ 0 ⟨0x7F000000, 0x7F000000, 0x100000, RegionState.opened⟩ (recordedHeaders 0xFFF00)
      0x7F0FFF00 :=
    ⟨oneRange_chosen, ⟨0xFFC00000, recordingImage 0xFFF00, by decide +kernel, by decide +kernel⟩,
      by decide +kernel⟩
  obtain ⟨base, placed, m, hcall⟩ := exists_writeImage (loadCalls (fixing 256)
    [⟨0xFFC00000, recordingVolume 0xFFF00⟩] oneRangeHobs (.new 0x1000 ())) (by decide +kernel)
  have hwritten := hfixed.written hcall
  have hlow := (aligned_inside hwritten.aligned).2.1
  have hlength : placed.length = 432 := by
    obtain ⟨_, image, -, -, hplace⟩ := hwritten.found
    exact place_length hplace
  refine ⟨_, _, _, _, _, base, placed, m, hfixed, hcall, ?_⟩
  change 0x7F000000 + 0x100000 < _
  change 0x7F0FFF00 ≤ _ at hlow
  omega

end PlatformInit.Ipl
