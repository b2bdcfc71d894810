import Mathlib.Logic.Basic
import PlatformInit.Proofs.Bytes.Slicing
import PlatformInit.Proofs.MemoryMap.DiscoveryOrder

/-!
The report of an image is the longest run of volumes that lie back to back from its beginning.

`BackToBack` says which volumes are reported and where the walk has come to, and `EndOfVolumes` why it
does not go on. The two determine the report, so an image that is put together from volumes and a tail
that is none reports just these.
-/
set_option autoImplicit false
namespace PlatformInit
namespace Volume

/-- The `length` bytes at `offset` are a volume of the image: they carry the signature and their length. -/
structure VolumeAt (image : Bytes) (offset length : Nat) : Prop where
  signed : image.u32? (offset + VolumeHeader.signatureOffset) = some VolumeHeader.magic
  length_eq : image.word? 8 (offset + VolumeHeader.lengthOffset) = some length
  pos : 0 < length
  stop_le : offset + length ≤ image.length

/-- Why no volume is reported at `offset`. -/
inductive EndOfVolumes (image : Bytes) (offset : Nat) : Prop
  | lastByte (h : image.length ≤ offset + 1)
  | unsigned (h : image.u32? (offset + VolumeHeader.signatureOffset) ≠ some VolumeHeader.magic)
  | badLength (h : ∀ length, image.word? 8 (offset + VolumeHeader.lengthOffset) = some length →
      length = 0 ∨ image.length < offset + length)

/-- The volumes, each with its base and its length, fill an image that is mapped at `imageBase` from
`offset` up to `stop`. -/
inductive BackToBack (imageBase : UInt64) (image : Bytes) : Nat → List (UInt64 × UInt64) → Nat → Prop
  | nil (offset : Nat) : BackToBack imageBase image offset [] offset
  | cons {offset stop : Nat} {v : UInt64 × UInt64} {rest : List (UInt64 × UInt64)}
      (base_eq : v.1.toNat = imageBase.toNat + offset) (volume : VolumeAt image offset v.2.toNat)
      (hrest : BackToBack imageBase image (offset + v.2.toNat) rest stop) :
      BackToBack imageBase image offset (v :: rest) stop

variable {imageBase : UInt64} {image : Bytes} {offset length : Nat}

theorem VolumeAt.size_le (h : VolumeAt image offset length) : offset + 0x2C ≤ image.length := by
  have hword := h.signed
  rw [Bytes.u32?, Option.map_eq_some_iff] at hword
  obtain ⟨n, hword, -⟩ := hword
  have hle := Bytes.le_length_of_word? hword
  rw [VolumeHeader.signatureOffset] at hle
  omega

theorem endOfVolumes_iff : EndOfVolumes image offset ↔ ∀ length, ¬VolumeAt image offset length := by
  constructor
  · intro h length hvolume
    have hsize := hvolume.size_le
    cases h with
    | lastByte h => omega
    | unsigned h => exact h hvolume.signed
    | badLength h =>
      have hpos := hvolume.pos
      have hstop := hvolume.stop_le
      have := h length hvolume.length_eq
      omega
  · intro h
    by_cases hsigned : image.u32? (offset + VolumeHeader.signatureOffset) = some VolumeHeader.magic
    · refine .badLength fun length hlength => ?_
      by_cases hgood : 0 < length ∧ offset + length ≤ image.length
      · exact absurd ⟨hsigned, hlength, hgood.1, hgood.2⟩ (h length)
      · omega
    · exact .unsigned hsigned

/-! ### One block -/

theorem blockAt_volume (h : VolumeAt image offset length) : blockAt image offset = .volume length := by
  rw [blockAt, if_pos h.signed, h.length_eq]
  exact if_pos ⟨h.pos, h.stop_le⟩

theorem volumeAt_of_blockAt (h : blockAt image offset = .volume length) : VolumeAt image offset length := by
  obtain ⟨hpos, hstop⟩ := blockAt_eq_volume h
  unfold blockAt at h
  split at h
  · rename_i hsigned
    cases hword : image.word? 8 (offset + VolumeHeader.lengthOffset) with
    | none =>
      rw [hword] at h
      cases h
    | some n =>
      rw [hword] at h
      dsimp only at h
      split at h
      · cases h
        exact ⟨hsigned, hword, hpos, hstop⟩
      · cases h
  · cases h

/-! ### The walk -/

section
variable (hfits : imageBase.toNat + image.length < UInt64.size)
include hfits

theorem add64_offset (hlt : offset < image.length) :
    ∃ base, add64 imageBase (.ofNat offset) = .ok base ∧ base.toNat = imageBase.toNat + offset := by
  have hoffset : (UInt64.ofNat offset).toNat = offset := UInt64.toNat_ofNat_of_lt' (by omega)
  have hsum : add64 imageBase (.ofNat offset) = .ok (imageBase + .ofNat offset) := if_pos (by omega)
  exact ⟨_, hsum, by rw [add64_eq_ok_iff.mp hsum, hoffset]⟩

theorem report_of_volume (h : VolumeAt image offset length) :
    ∃ v, report imageBase image offset = .next v (report imageBase image (offset + length)) ∧
      v.1.toNat = imageBase.toNat + offset ∧ v.2.toNat = length := by
  have hsize := h.size_le
  have hstop := h.stop_le
  obtain ⟨base, hbase, hvalue⟩ := add64_offset hfits (show offset < image.length by omega)
  refine ⟨(base, .ofNat length), ?_, hvalue, UInt64.toNat_ofNat_of_lt' (by omega)⟩
  rw [report, if_pos (by omega)]
  split
  · rename_i hblock
    rw [blockAt_volume h] at hblock
    cases hblock
  · rename_i hblock
    rw [blockAt_volume h] at hblock
    cases hblock
  · rename_i hblock
    rw [blockAt_volume h] at hblock
    cases hblock
    rw [hbase]

theorem report_of_end (h : EndOfVolumes image offset) : report imageBase image offset = .done := by
  rw [report]
  split
  · rename_i hlt
    split
    · rfl
    · obtain ⟨base, hbase, -⟩ := add64_offset hfits (show offset < image.length by omega)
      rw [hbase]
    · rename_i length hblock
      exact absurd (volumeAt_of_blockAt hblock) (endOfVolumes_iff.mp h length)
  · rfl

theorem report_of_backToBack {volumes : List (UInt64 × UInt64)} {stop : Nat}
    (h : BackToBack imageBase image offset volumes stop) (hend : EndOfVolumes image stop) :
    (report imageBase image offset).toList = .ok volumes := by
  induction h with
  | nil offset =>
    rw [report_of_end hfits hend]
    rfl
  | @cons offset stop v rest base_eq volume _ ih =>
    obtain ⟨v', hreport, hbase, hlength⟩ := report_of_volume hfits volume
    obtain rfl : v' = v :=
      Prod.ext (UInt64.toNat_inj.mp (hbase.trans base_eq.symm)) (UInt64.toNat_inj.mp hlength)
    rw [hreport, Walk.toList, ih hend]
    rfl

theorem exists_backToBack (offset : Nat) : ∃ volumes stop,
    BackToBack imageBase image offset volumes stop ∧ EndOfVolumes image stop := by
  by_cases h : EndOfVolumes image offset
  · exact ⟨[], offset, .nil offset, h⟩
  · rw [endOfVolumes_iff, not_forall] at h
    obtain ⟨length, hlength⟩ := h
    have hvolume : VolumeAt image offset length := not_not.mp hlength
    have hpos := hvolume.pos
    have hstop := hvolume.stop_le
    obtain ⟨v, -, hbase, rfl⟩ := report_of_volume hfits hvolume
    obtain ⟨volumes, stop, hvolumes, hend⟩ := exists_backToBack (offset + v.2.toNat)
    exact ⟨v :: volumes, stop, .cons hbase hvolume hvolumes, hend⟩
termination_by image.length - offset

end

/-! ### Images put together from volumes -/

/-- The base and the length of each part when the parts lie end to end from `offset` on. -/
def placements (imageBase : UInt64) : Nat → List Bytes → List (UInt64 × UInt64)
  | _, [] => []
  | offset, part :: parts =>
    (imageBase + .ofNat offset, .ofNat part.length) ::
      placements imageBase (offset + part.length) parts

theorem VolumeAt.within {part : Bytes} (h : VolumeAt part 0 part.length)
    (hpart : image.slice? offset part.length = some part) : VolumeAt image offset part.length := by
  have hsize := h.size_le
  refine ⟨?_, ?_, h.pos, Bytes.le_length_of_slice? hpart⟩
  · rw [Bytes.u32?_within hpart, ← h.signed, Nat.zero_add]
    rw [VolumeHeader.signatureOffset]
    omega
  · rw [Bytes.word?_within hpart, ← h.length_eq, Nat.zero_add]
    rw [VolumeHeader.lengthOffset]
    omega

theorem backToBack_placements {parts : List Bytes} (h : ∀ part ∈ parts, VolumeAt part 0 part.length)
    (before tail : Bytes)
    (hfits : imageBase.toNat + (before ++ (parts.flatten ++ tail)).length < UInt64.size) :
    BackToBack imageBase (before ++ (parts.flatten ++ tail)) before.length
      (placements imageBase before.length parts) (before ++ parts.flatten).length := by
  induction parts generalizing before with
  | nil =>
    rw [List.flatten_nil, List.append_nil]
    exact .nil _
  | cons part parts ih =>
    obtain ⟨hpart, hparts⟩ := List.forall_mem_cons.mp h
    have hrest := ih hparts (before ++ part)
    simp only [List.flatten_cons, List.append_assoc, List.length_append] at hrest hfits ⊢
    have hoffset : (UInt64.ofNat before.length).toNat = before.length :=
      UInt64.toNat_ofNat_of_lt' (by omega)
    have hlength : (UInt64.ofNat part.length).toNat = part.length := UInt64.toNat_ofNat_of_lt' (by omega)
    refine .cons ?_ ?_ ?_
    · rw [UInt64.toNat_add, hoffset]
      exact Nat.mod_eq_of_lt (show _ < UInt64.size by omega)
    · rw [hlength]
      exact hpart.within (Bytes.slice?_eq_some_iff.mpr ⟨before, _, rfl, rfl, rfl⟩)
    · rw [hlength]
      exact hrest hfits

theorem endOfVolumes_tail (before : Bytes) {tail : Bytes}
    (h : tail.u32? VolumeHeader.signatureOffset ≠ some VolumeHeader.magic) :
    EndOfVolumes (before ++ tail) before.length := by
  refine .unsigned ?_
  rwa [Bytes.u32?_append_of_le tail (Nat.le_add_right _ _), Nat.add_sub_cancel_left]

/-! ### The report -/

theorem reportVolumes_of_toList {ω : Type} {image : FspImage} {volumes : List (UInt64 × UInt64)}
    (h : (report image.base image.bytes 0).toList = .ok volumes) (d : Discovery ω) :
    Discovery.reportVolumes image d = .ok volumes.length
      { d with hobs := d.hobs ++ volumes.map fun v => .volume v.1 v.2 } := by
  rw [Discovery.reportVolumes, Walk.items_of_toList h, h]
  rfl

/-- Of an image that ends within the address space, the volumes that lie back to back from its beginning
are reported, up to a place where no volume is. Volumes laid end to end, before anything that is no volume,
are all reported and nothing else is. -/
theorem report_maximal (imageBase : UInt64) (image : Bytes)
    (hfits : imageBase.toNat + image.length < UInt64.size) :
    (∃ volumes stop, (report imageBase image 0).toList = .ok volumes ∧
      BackToBack imageBase image 0 volumes stop ∧ EndOfVolumes image stop ∧
      ∀ (ω : Type) (configSize : Nat) (d : Discovery ω),
        Discovery.reportVolumes ⟨imageBase, image, configSize⟩ d = .ok volumes.length
          { d with hobs := d.hobs ++ volumes.map fun v => .volume v.1 v.2 }) ∧
    ∀ (parts : List Bytes) (tail : Bytes), image = parts.flatten ++ tail →
      (∀ part ∈ parts, VolumeAt part 0 part.length) →
      tail.u32? VolumeHeader.signatureOffset ≠ some VolumeHeader.magic →
      (report imageBase image 0).toList = .ok (placements imageBase 0 parts) := by
  constructor
  · obtain ⟨volumes, stop, hvolumes, hend⟩ := exists_backToBack hfits 0
    have hreport := report_of_backToBack hfits hvolumes hend
    exact ⟨volumes, stop, hreport, hvolumes, hend, fun _ _ d => reportVolumes_of_toList hreport d⟩
  · rintro parts tail rfl hparts htail
    exact report_of_backToBack hfits (backToBack_placements hparts [] tail hfits)
      (endOfVolumes_tail parts.flatten htail)

def bareVolume (length : Nat) : Bytes :=
  List.replicate VolumeHeader.lengthOffset 0 ++ leBytes 8 length ++ le32 VolumeHeader.magic ++
    List.replicate (length - 0x2C) 0

theorem report_maximal_two : (0xFFE00000 : UInt64).toNat +
      ([bareVolume 0x2C, bareVolume 0x30].flatten ++ List.replicate 0x40 0xFF).length < UInt64.size ∧
    (report 0xFFE00000 ([bareVolume 0x2C, bareVolume 0x30].flatten ++ List.replicate 0x40 0xFF) 0).toList =
      .ok [(0xFFE00000, 0x2C), (0xFFE0002C, 0x30)] := by
  have hfits : (0xFFE00000 : UInt64).toNat +
      ([bareVolume 0x2C, bareVolume 0x30].flatten ++ List.replicate 0x40 0xFF).length < UInt64.size := by
    decide +kernel
  have hparts : ∀ part ∈ [bareVolume 0x2C, bareVolume 0x30], VolumeAt part 0 part.length := by
    simp only [List.forall_mem_cons]
    refine ⟨?_, ?_, List.forall_mem_nil _⟩ <;> constructor <;> decide
  exact ⟨hfits, (report_maximal _ _ hfits).2 _ _ rfl hparts (by decide)⟩

end Volume

namespace Discovery
variable {ω : Type}

/-- A sequence that returns has published the processor and, behind it, the volumes that lie back to back
from the beginning of the image. -/
theorem records_backToBack (config : LayoutConfig) (image : FspImage) (p : Platform ω) (d d' : Discovery ω)
    {summary : DiscoverySummary} (hfits : image.base.toNat + image.bytes.length < UInt64.size)
    (hreturns : onMemoryDiscovered config image p d = .ok summary d') : ∃ found stop,
      Volume.BackToBack image.base image.bytes 0 found stop ∧ Volume.EndOfVolumes image.bytes stop ∧
      d'.hobs = d.hobs ++ .cpu summary.addressBits config.ioSpaceBits ::
        found.map (fun v => .volume v.1 v.2) ∧
      summary.volumes = found.length := by
  obtain ⟨found, stop, hfound, hend⟩ := Volume.exists_backToBack hfits 0
  have hitems := Walk.items_of_toList (Volume.report_of_backToBack hfits hfound hend)
  have hfollows := onMemoryDiscovered_follows config image p (d.noted [])
  cases hrun : onMemoryDiscovered config image p.noting (d.noted []) with
  | error e final =>
    rw [hrun] at hfollows
    cases hreturns.symm.trans hfollows
  | ok summary' final =>
    rw [hrun] at hfollows
    cases hreturns.symm.trans hfollows
    obtain ⟨events, hplanned, hrecorded, -, hreports⟩ :=
      (onMemoryDiscovered_planned config image p d).of_ok hrun
    have hreported := hreports summary rfl
    have hrecords := hreported.records_eq
    obtain ⟨others, hothers, hcount⟩ := hreported.records
    have hpublished : events.filterMap (·.effect.hob?) =
        (plan config image p d).filterMap DiscoveryEffect.hob? := by
      rw [← (hplanned.complete summary rfl).1, List.filterMap_map]
      rfl
    refine ⟨found, stop, hfound, hend, ?_, ?_⟩
    · rw [hitems] at hrecords
      exact hrecorded.hobs.trans (by rw [hpublished, hrecords]; rfl)
    · rw [hothers, hitems, List.cons.injEq] at hrecords
      rw [← hcount, hrecords.2, List.length_map]

example : (Step.after (onMemoryDiscovered {}
      ⟨0xFFE00000, Volume.bareVolume 0x2C ++ Volume.bareVolume 0x30 ++ List.replicate 0x40 0xFF, 3⟩
      quietPlatform) twoBlocks).hobs.drop 2 = [.volume 0xFFE00000 0x2C, .volume 0xFFE0002C 0x30] := by
  decide +kernel

end Discovery
end PlatformInit
