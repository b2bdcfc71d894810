import PlatformInit.Proofs.Pe.Layout
import PlatformInit.Proofs.Pe.Placing
import PlatformInit.Proofs.Volume.Entries

/-!
Cores that can be found and laid out without an overflow.

Two sums may not fit their words on the way: the end of a file in a volume, and the place of a fixup.
Everything else that may be wrong with a volume or an image is an error.
-/
set_option autoImplicit false
namespace PlatformInit

open Step (Ends Returns)

namespace RelocationBlock

/-- Every fixup of the block has a place that 32 bits can name. -/
def Fits (b : RelocationBlock) : Prop :=
  ∀ entry ∈ b.entries, b.page.toNat + (offsetOf entry).toNat < UInt32.size

theorem adjust_returns (width offset : Nat) (adjustment : UInt64) (image : Bytes) :
    Ends (adjust width offset adjustment) image fun r _ => Returns r := by
  refine Ends.get_bind ?_
  cases image.word? width offset <;> trivial

theorem apply_returns (adjustment : UInt64) {b : RelocationBlock} (h : b.Fits) (image : Bytes) :
    Ends (apply adjustment b) image fun r _ => Returns r := by
  refine Ends.returns_forM (fun entry hentry image => ?_) image
  unfold applyEntry
  rw [add32, if_pos (h entry hentry)]
  refine Ends.bind_of_ok rfl ?_
  split
  · trivial
  split
  · exact adjust_returns ..
  split
  · exact adjust_returns ..
  · trivial

end RelocationBlock

namespace PeImage

/-- Every fixup of an image that is laid out as `loaded` has a place. -/
def Relocatable (p : PeImage) (loaded : Bytes) : Prop :=
  ∀ directory data blocks, p.relocations = some directory →
    loaded.slice? directory.address.toNat directory.size.toNat = some data →
    RelocationBlock.readAll data = .ok blocks → ∀ b ∈ blocks, b.Fits

theorem relocate_returns {p : PeImage} {destination : UInt64} {loaded : Bytes}
    (h : p.Relocatable (loaded.overwrite p.imageBaseOffset (le64 destination))) :
    Ends (p.relocate destination) loaded fun r _ => Returns r := by
  refine Ends.get_bind ?_
  cases loaded.u64? p.imageBaseOffset with
  | none => trivial
  | some base =>
    refine Ends.bind_of_ok rfl ?_
    cases hdirectory : p.relocations with
    | none => trivial
    | some directory =>
      dsimp only
      split
      · trivial
      · cases hdata : (loaded.overwrite p.imageBaseOffset (le64 destination)).slice?
            directory.address.toNat directory.size.toNat with
        | none => trivial
        | some data =>
          dsimp only
          cases hblocks : RelocationBlock.readAll data with
          | error e => exact Ends.bind_of_error rfl trivial
          | ok blocks =>
            refine Ends.bind_of_ok rfl (Ends.returns_forM (fun b hb => ?_) _)
            exact RelocationBlock.apply_returns _ (h directory data blocks hdirectory hdata hblocks b hb)

end PeImage

theorem Ipl.place_returns {p : PeImage} {image : Bytes} {address : UInt64}
    (h : ∀ loaded, p.load image (List.replicate p.sizeOfImage.toNat 0) = .ok () loaded →
      p.Relocatable (loaded.overwrite p.imageBaseOffset (le64 address))) :
    Returns (place p image address) := by
  have hplacing : Ends (do p.load image; p.relocate address : Step Bytes PeError Unit)
      (List.replicate p.sizeOfImage.toNat 0) fun r _ => Returns r := by
    have hload := p.load_returns image (List.replicate p.sizeOfImage.toNat 0)
    cases hend : p.load image (List.replicate p.sizeOfImage.toNat 0) with
    | ok _ loaded => exact Ends.bind_of_ok hend (PeImage.relocate_returns (h loaded hend))
    | error e loaded => exact Ends.bind_of_error hend (hload.of_error hend)
  unfold place
  dsimp only
  split
  · trivial
  · rename_i e loaded hend
    cases e with
    | error e => trivial
    | halt why => exact hplacing.of_error hend

theorem Volume.findSection_returns {v : Volume} {files : List FirmwareFile}
    (h : v.files.toList = .ok files) (fileKind sectionKind : UInt8) :
    Returns (v.findSection fileKind sectionKind) := by
  rw [findSection_of_toList h]
  split <;> trivial

namespace MappedVolume

/-- Every file of the volume ends where a word can say so. -/
def Walkable (v : MappedVolume) : Prop :=
  ∀ volume, Volume.read v.bytes = .ok volume → ∃ files, volume.files.toList = .ok files

theorem core?_eq_ok {v : MappedVolume} (h : v.Walkable) : ∃ image, v.core? = .ok image := by
  unfold core?
  cases hread : Volume.read v.bytes with
  | error e => exact ⟨none, rfl⟩
  | ok volume =>
    obtain ⟨files, hfiles⟩ := h volume hread
    have hreturns := volume.findSection_returns hfiles coreFile imageSection
    dsimp only
    cases hsection : volume.findSection coreFile imageSection with
    | ok image => exact ⟨some image, rfl⟩
    | error e =>
      cases e with
      | error e => exact ⟨none, rfl⟩
      | halt why =>
        rw [hsection] at hreturns
        exact hreturns.elim

theorem findCore_returns {volumes : List MappedVolume} (h : ∀ v ∈ volumes, v.Walkable) :
    Returns (findCore volumes) := by
  induction volumes with
  | nil => trivial
  | cons v volumes ih =>
    obtain ⟨hv, hvolumes⟩ := List.forall_mem_cons.mp h
    obtain ⟨image, himage⟩ := core?_eq_ok hv
    rw [findCore, himage]
    cases image with
    | none => exact ih hvolumes
    | some image => trivial

end MappedVolume

/-- The volumes can be walked, and every fixup of the core that they hold has a place. -/
structure CoreReadable (reader : PeReader) (volumes : List MappedVolume) : Prop where
  walkable : ∀ v ∈ volumes, v.Walkable
  relocatable : ∀ volume image p loaded base, MappedVolume.findCore volumes = .ok (volume, image) →
    reader.parse image = .ok p →
    p.load image (List.replicate p.sizeOfImage.toNat 0) = .ok () loaded →
    p.Relocatable (loaded.overwrite p.imageBaseOffset (le64 base))

end PlatformInit
