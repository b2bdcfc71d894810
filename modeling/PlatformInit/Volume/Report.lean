import PlatformInit.Volume.Header
import PlatformInit.Walk
import PlatformInit.Word.Checked

/-!
The volumes that lie back to back at the beginning of a firmware image.
-/
set_option autoImplicit false
namespace PlatformInit.Volume

inductive Block where
  | unsigned
  | badLength
  | volume (length : Nat)

/-- What is at `offset`: a volume has the signature and a positive length that lies inside the image. -/
def blockAt (image : Bytes) (offset : Nat) : Block :=
  if image.u32? (offset + VolumeHeader.signatureOffset) = some VolumeHeader.magic then
    match image.word? 8 (offset + VolumeHeader.lengthOffset) with
    | some length =>
      if 0 < length ∧ offset + length ≤ image.length then .volume length else .badLength
    | none => .badLength
  else .unsigned

theorem blockAt_eq_volume {image : Bytes} {offset length : Nat}
    (h : blockAt image offset = .volume length) : 0 < length ∧ offset + length ≤ image.length := by
  unfold blockAt at h
  split at h
  · split at h
    · split at h
      · cases h
        assumption
      · cases h
    · cases h
  · cases h

/-- Base and length of each volume from `offset` on, in an image mapped at `imageBase`. The walk
ends at the last byte of the image or at the first block that is no volume. -/
def report (imageBase : UInt64) (image : Bytes) (offset : Nat) : Walk (UInt64 × UInt64) :=
  if offset < image.length - 1 then
    match _found : blockAt image offset with
    | .unsigned => .done
    | .badLength =>
      match add64 imageBase (.ofNat offset) with
      | .error h => .halted h
      | .ok _ => .done
    | .volume length =>
      match add64 imageBase (.ofNat offset) with
      | .error h => .halted h
      | .ok base => .next (base, .ofNat length) (report imageBase image (offset + length))
  else .done
termination_by image.length - offset
decreasing_by
  have := blockAt_eq_volume _found
  omega

end PlatformInit.Volume
