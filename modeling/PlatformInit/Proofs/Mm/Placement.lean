import PlatformInit.Bench.Pe
import PlatformInit.Proofs.Memory
import PlatformInit.Proofs.Mm.CoreLoad
import PlatformInit.Proofs.Pe.Placing
import PlatformInit.Proofs.Smram.Carving
import PlatformInit.Proofs.Smram.Descriptors

/-!
Where the image of a core goes that has no fixed place, and what the other users of SMRAM are told.
-/
set_option autoImplicit false
namespace PlatformInit

namespace Machine
variable {ω : Type}

/-- The descriptor block that the record of a core points into. The record holds the address of the
first range, which the count comes before, and the number of ranges. -/
def rangesBlock (m : Machine ω) (core : UInt64) : Bytes :=
  m.memory.read ((m.cores core).ranges.1 - .ofNat DescriptorBlock.start).toNat
    (DescriptorBlock.start + SmramRange.encodedSize * (m.cores core).ranges.2.toNat)

/-- The ranges that a core finds through its record. -/
def publishedRanges (m : Machine ω) (core : UInt64) : Option (List SmramRange) :=
  DescriptorBlock.readRanges (m.cores core).ranges.2.toNat
    ((m.rangesBlock core).drop DescriptorBlock.start)

variable {m : Machine ω} {core : UInt64} {ranges : List SmramRange} (h : m.Publishes core ranges)
  (hlength : ranges.length < UInt64.size)
include h hlength

theorem Publishes.rangesBlock_eq : m.rangesBlock core = DescriptorBlock.encode ranges := by
  obtain ⟨before, block, hmemory, hranges⟩ := h
  rw [rangesBlock, hmemory, hranges, UInt64.add_sub_cancel]
  change (before.write _ _).read _ (_ + _ * (UInt64.ofNat ranges.length).toNat) = _
  rw [UInt64.toNat_ofNat_of_lt' hlength, ← DescriptorBlock.length_encode, Memory.read_write]

theorem Publishes.publishedRanges_eq : m.publishedRanges core = some ranges := by
  have hblock := h.rangesBlock_eq hlength
  obtain ⟨before, block, -, hranges⟩ := h
  rw [publishedRanges, hblock, hranges, DescriptorBlock.drop_start_encode]
  change DescriptorBlock.readRanges (UInt64.ofNat ranges.length).toNat _ = _
  rw [UInt64.toNat_ofNat_of_lt' hlength, ← List.append_nil (ranges.flatMap _),
    DescriptorBlock.readRanges_toBytes]

end Machine

namespace Ipl
variable {ω : Type}

theorem choosePlace_carves {c : IplConfig} (hcarves : c.fixedAddress = false) {p : PeImage}
    {index : Nat} {range : SmramRange} {t final : SmramTable} {destination : UInt64}
    {carved : Option Carveout} (h : choosePlace c p index range t = .ok (destination, carved) final) :
    ∃ claim u, carved = some claim ∧ destination = claim.destination ∧
      SmramTable.carve index p.sizeOfImage.toUInt64 p.sectionAlignment.toUInt64 t = .ok claim u ∧
      SmramTable.commit claim u = .ok () final := by
  have hfixed : fixedPlace c p range = .ok none := by
    rw [fixedPlace, hcarves]
    rfl
  rw [choosePlace, hfixed] at h
  obtain ⟨place, t', hplace, h⟩ := Step.bind_eq_ok.mp h
  obtain ⟨hplace, rfl⟩ := Step.ofHalting_eq_ok.mp hplace
  cases hplace
  obtain ⟨claim, u, hcarve, h⟩ := Step.bind_eq_ok.mp (Step.mapError_eq_ok.mp h)
  obtain ⟨⟨⟩, v, hcommit, h⟩ := Step.bind_eq_ok.mp h
  cases h
  exact ⟨claim, u, rfl, rfl, hcarve, hcommit⟩

theorem aligned_inside {p : PeImage} {destination base : UInt64}
    (h : alignUp destination (max p.sectionAlignment.toUInt64 1) = .ok base) :
    (p.sectionAlignment ≠ 0 → base.toNat % p.sectionAlignment.toNat = 0) ∧
      destination.toNat ≤ base.toNat ∧ base.toNat ≤ destination.toNat + p.sectionAlignment.toNat := by
  obtain ⟨hmod, hle, hlt⟩ := alignUp_eq_ok h
  have hword : p.sectionAlignment.toUInt64.toNat = p.sectionAlignment.toNat := UInt32.toNat_toUInt64 _
  by_cases hzero : p.sectionAlignment = 0
  · rw [hzero] at hlt
    refine ⟨fun hne => absurd hzero hne, hle, ?_⟩
    change _ < _ + 1 at hlt
    omega
  · have hmax : max p.sectionAlignment.toUInt64 1 = p.sectionAlignment.toUInt64 := by
      have hpos : p.sectionAlignment.toNat ≠ 0 := fun heq => hzero (UInt32.toNat_inj.mp heq)
      by_cases hone : p.sectionAlignment.toUInt64 ≤ 1
      · refine (if_pos hone).trans (UInt64.le_antisymm (UInt64.le_iff_toNat_le.mpr ?_) hone)
        rw [hword]
        exact Nat.pos_of_ne_zero hpos
      · exact if_neg hone
    rw [hmax, hword] at hmod hlt
    exact ⟨fun _ => hmod, hle, Nat.le_of_lt hlt⟩

theorem length_opened_lt {hobs : HobList} {table : SmramTable}
    (h : SmramTable.ofHobs hobs = .ok table) : table.opened.ranges.length < UInt32.size := by
  rw [SmramTable.ofHobs] at h
  split at h
  · cases h
  · rename_i data _
    split at h
    · cases h
    · cases h
    · rename_i ranges _ hdecode
      cases h
      rw [SmramTable.opened, SmramTable.setState, List.length_map]
      exact DescriptorBlock.length_lt_of_decode hdecode

/-- Without fixed places an image is only written into space that was carved from the tail of the
chosen range. It is aligned as its headers ask, and it lies in the claim and so in the range. What
the record of the core lists at that moment is the open table with the claim taken from its range
and entered as allocated, and no other entry meets the image. -/
theorem carved_image_inside (parts : IplParts ω) (hcarves : parts.config.fixedAddress = false)
    (volumes : List MappedVolume) (hobs : HobList) (machine : Machine ω)
    (hapart : ∀ table, SmramTable.ofHobs hobs = .ok table →
      table.ranges.Pairwise SmramRange.Apart)
    (base : UInt64) (placed : Bytes) (m : Machine ω)
    (hcall : .writeImage base placed m ∈ loadCalls parts volumes hobs machine) :
    ∃ table index range p c, Chosen hobs table index range ∧
      (∃ volume image, MappedVolume.findCore volumes = .ok (volume, image) ∧
        parts.reader.parse image = .ok p ∧ place p image base = .ok placed) ∧
      (p.sectionAlignment ≠ 0 → base.toNat % p.sectionAlignment.toNat = 0) ∧
      c.index = index ∧ c.TailOf range ∧
      c.destination.toNat ≤ base.toNat ∧
      base.toNat + placed.length ≤ c.destination.toNat + c.size.toNat ∧
      range.cpuStart.toNat ≤ base.toNat ∧
      base.toNat + placed.length ≤ range.cpuStart.toNat + range.size.toNat ∧
      m.publishedRanges machine.newCore.2 = some (table.opened.withClaim c range).ranges ∧
      ((table.opened.withClaim c range).ranges.length < UInt32.size →
        DescriptorBlock.decode (m.rangesBlock machine.newCore.2) =
          .ok (table.opened.withClaim c range).ranges) ∧
      ∀ j entry, (table.opened.withClaim c range).ranges[j]? = some entry →
        j ≠ table.opened.ranges.length →
        entry.cpuStart.toNat + entry.size.toNat ≤ base.toNat ∨
          base.toNat + placed.length ≤ entry.cpuStart.toNat := by
  obtain ⟨table, final, index, range, p, destination, carved, hwritten⟩ := loadCore_writeImage hcall
  obtain ⟨c, u, rfl, rfl, hcarve, hcommit⟩ := choosePlace_carves hcarves hwritten.chosen
  have hroom : p.sizeOfImage.toUInt64.toNat + p.sectionAlignment.toUInt64.toNat + 0xFFF <
      UInt64.size := by
    have hsize := p.sizeOfImage.toNat_lt_size
    have halign := p.sectionAlignment.toNat_lt_size
    rw [UInt32.toNat_toUInt64, UInt32.toNat_toUInt64]
    change _ < 2 ^ 64
    change _ < 2 ^ 32 at hsize halign
    omega
  obtain ⟨r, hr, hindex, htail, hsize, hfinal⟩ := SmramTable.carve_commit hroom hcarve hcommit
  have hrange : range = r := by
    rw [hwritten.range_eq, Option.some.injEq] at hr
    exact hr
  subst hrange
  obtain ⟨haligned, habove, hbelow⟩ := aligned_inside hwritten.aligned
  have hplaced : placed.length = p.sizeOfImage.toNat := by
    obtain ⟨_, image, -, -, hplace⟩ := hwritten.found
    exact place_length hplace
  rw [UInt32.toNat_toUInt64, UInt32.toNat_toUInt64] at hsize
  have hstop : base.toNat + placed.length ≤ c.destination.toNat + c.size.toNat := by omega
  have hrest := htail.rest_size
  have hend := htail.stop
  have hlengths := length_opened_lt hwritten.reported
  have hfinalLength : (table.opened.withClaim c range).ranges.length = table.opened.ranges.length + 1 := by
    rw [SmramTable.withClaim, List.length_append, List.length_set, List.length_singleton]
  have hword : (table.opened.withClaim c range).ranges.length < UInt64.size := by
    rw [hfinalLength]
    change _ < 2 ^ 64
    change _ < 2 ^ 32 at hlengths
    omega
  have hpublished := hfinal ▸ hwritten.published
  refine ⟨table, index, range, p, c, hwritten.toChosen, hwritten.found, haligned, hindex, htail, habove,
    hstop, by omega, by omega, hpublished.publishedRanges_eq hword, fun hfits => ?block,
    fun j entry hentry hj => ?others⟩
  case block =>
    rw [hpublished.rangesBlock_eq hword, ← List.append_nil (DescriptorBlock.encode _)]
    exact DescriptorBlock.decode_encode hfits []
  case others =>
    have hopened : table.opened.ranges.Pairwise SmramRange.Apart :=
      SmramTable.pairwise_setState _ _ (hapart table hwritten.reported)
    have hentry := SmramTable.apart_entry hopened (hindex ▸ hr) htail hj hentry
    change _ ≤ c.destination.toNat ∨ c.destination.toNat + c.size.toNat ≤ _ at hentry
    omega

/-- Headers without sections that ask for 208 bytes at a multiple of 4 KiB. -/
def bareImage : Bytes :=
  le16 PeImage.dosMagic ++ List.replicate 58 0 ++ le32 0x48 ++ List.replicate 8 0 ++
    le32 Bench.PeReading.peMagic ++ List.replicate 16 0 ++ le16 112 ++ le16 0 ++
    le16 0x20B ++ List.replicate 14 0 ++ le32 0x40 ++ List.replicate 12 0 ++ le32 0x1000 ++
    List.replicate 20 0 ++ le32 208 ++ le32 208 ++ List.replicate 48 0

def bareVolume : Bytes :=
  List.replicate 16 0 ++ Guid.fileSystem2.toBytes ++ le64 292 ++ le32 VolumeHeader.magic ++
    le32 0 ++ le16 0x38 ++ List.replicate 6 0 ++
    Guid.readyToLock.toBytes ++ le16 0 ++ [MappedVolume.coreFile, 0] ++ leBytes 3 236 ++ [0] ++
    leBytes 3 212 ++ [MappedVolume.imageSection] ++ bareImage

def obliging : IplParts Unit where
  config := {}
  reader := Bench.peReader
  access := ⟨pure (), pure (), pure (), fun _ => false, fun _ => false⟩
  cache := ⟨pure (), fun _ _ _ => pure ()⟩
  launcher := ⟨fun _ _ => pure (), fun _ _ m => m, fun _ _ m => (Status.success, m)⟩

def twoRanges : List SmramRange :=
  [⟨0x7F000000, 0x7F000000, 0x100000, RegionState.closed⟩,
    ⟨0x7E000000, 0x7E000000, 0x80000, RegionState.closed⟩]

theorem carved_image_inside_bare : ∃ base placed m,
    .writeImage base placed m ∈ loadCalls obliging [⟨0, bareVolume⟩]
      [.guidExtension Guid.smramMemory (DescriptorBlock.encode twoRanges)] (.new 0x1000 ()) ∧
    ∃ (range : SmramRange) (c : Carveout), c.TailOf range ∧ c.destination.toNat ≤ base.toNat ∧
      base.toNat + placed.length ≤ c.destination.toNat + c.size.toNat := by
  have hwrites : (loadCalls obliging [⟨0, bareVolume⟩] [.guidExtension Guid.smramMemory
      (DescriptorBlock.encode twoRanges)] (.new 0x1000 ())).any IplCall.isWrite = true := by
    decide +kernel
  have hreported : SmramTable.ofHobs [.guidExtension Guid.smramMemory
      (DescriptorBlock.encode twoRanges)] = .ok ⟨twoRanges⟩ := by
    have hdecode := DescriptorBlock.decode_encode (show twoRanges.length < UInt32.size by decide) []
    rw [List.append_nil] at hdecode
    have hdata : HobList.dataOf? [.guidExtension Guid.smramMemory (DescriptorBlock.encode twoRanges)]
        Guid.smramMemory = some (DescriptorBlock.encode twoRanges) := rfl
    rw [SmramTable.ofHobs, hdata]
    dsimp only
    rw [hdecode]
    rfl
  obtain ⟨call, hcall, hwrite⟩ := List.any_eq_true.mp hwrites
  cases call with
  | writeImage base placed m =>
    obtain ⟨_, _, range, _, c, -, -, -, -, htail, habove, hbelow, -⟩ := carved_image_inside obliging
      rfl _ _ _ (fun table htable => by
        rw [hreported] at htable
        cases htable
        exact List.pairwise_pair.mpr (Or.inr (by decide))) base placed m hcall
    exact ⟨base, placed, m, hcall, range, c, htail, habove, hbelow⟩
  | _ => cases hwrite

end Ipl
end PlatformInit
