import PlatformInit.Mm.Ipl
import PlatformInit.Proofs.Bytes.Reading
import PlatformInit.Proofs.Contract

/-!
Laying out an image and moving it keep the length of the buffer.
-/
set_option autoImplicit false
namespace PlatformInit

def HasLength (n : Nat) (bytes : Bytes) : Prop := bytes.length = n

open Step (Keeps Ends)

theorem hasLength_overwrite {n offset : Nat} {bytes part : Bytes} (h : HasLength n bytes)
    (hfits : offset + part.length ≤ bytes.length) : HasLength n (bytes.overwrite offset part) :=
  Eq.trans (Bytes.length_overwrite hfits) h

variable (n : Nat)

namespace RelocationBlock

theorem adjust_length (width offset : Nat) (adjustment : UInt64) :
    Keeps (HasLength n) (adjust width offset adjustment) := by
  intro image himage
  refine Ends.get_bind ?_
  cases hword : image.word? width offset with
  | none => exact himage
  | some value =>
    refine Ends.set (hasLength_overwrite himage ?_)
    rw [length_leBytes]
    exact Bytes.le_length_of_word? hword

theorem applyEntry_length (page : UInt32) (adjustment : UInt64) (entry : UInt16) :
    Keeps (HasLength n) (applyEntry page adjustment entry) := by
  refine Keeps.bind (Keeps.ofFallible _) fun address => ?_
  split
  · exact Keeps.pure _
  split
  · exact adjust_length n _ _ _
  split
  · exact adjust_length n _ _ _
  · exact Keeps.fail _

theorem apply_length (adjustment : UInt64) (b : RelocationBlock) :
    Keeps (HasLength n) (apply adjustment b) :=
  Keeps.forM fun entry _ => applyEntry_length n _ _ entry

end RelocationBlock

namespace PeImage

theorem copy_length (image : Bytes) (source target length : Nat) :
    Keeps (HasLength n) (copy image source target length) := by
  intro loaded hloaded
  refine Ends.get_bind ?_
  by_cases hfits : loaded.reaches (target + length) = true
  · rw [if_pos hfits]
    cases hpart : image.slice? source length with
    | none => exact hloaded
    | some part =>
      have hpartlen := Bytes.length_of_slice? hpart
      refine Ends.set (hasLength_overwrite hloaded ?_)
      rw [hpartlen]
      exact Bytes.reaches_iff.mp hfits
  · rw [if_neg hfits]
    exact hloaded

theorem load_length (p : PeImage) (image : Bytes) : Keeps (HasLength n) (p.load image) := by
  intro loaded hloaded
  refine Ends.bind (R := fun _ t => HasLength n t) ?_ (fun _ t ht => ?_) fun _ _ ht => ht
  · exact Ends.modify (Eq.trans List.length_replicate hloaded)
  · exact Keeps.bind (copy_length n image _ _ _)
      (fun _ => Keeps.forM fun s _ => copy_length n image _ _ _) t ht

theorem relocate_length (p : PeImage) (destination : UInt64) :
    Keeps (HasLength n) (p.relocate destination) := by
  intro image himage
  refine Ends.get_bind ?_
  cases hbase : image.u64? p.imageBaseOffset with
  | none => exact himage
  | some base =>
    obtain ⟨value, hword, -⟩ := Option.map_eq_some_iff.mp hbase
    have hmoved : HasLength n (image.overwrite p.imageBaseOffset (le64 destination)) := by
      refine hasLength_overwrite himage ?_
      rw [length_le64]
      exact Bytes.le_length_of_word? hword
    refine Ends.bind (R := fun _ t => HasLength n t) (Ends.set hmoved)
      (fun _ t ht => (?_ : Keeps (HasLength n) _) t ht) fun _ _ ht => ht
    split
    · exact Keeps.pure _
    split
    · exact Keeps.pure _
    split
    · exact Keeps.fail _
    · exact Keeps.bind (Keeps.ofFallible _) fun blocks =>
        Keeps.forM fun b _ => RelocationBlock.apply_length n _ b

end PeImage

theorem Ipl.place_length {p : PeImage} {image placed : Bytes} {address : UInt64}
    (h : place p image address = .ok placed) : placed.length = p.sizeOfImage.toNat := by
  have hkeeps : Keeps (HasLength p.sizeOfImage.toNat) (do p.load image; p.relocate address) :=
    Keeps.bind (PeImage.load_length _ p image) fun _ => PeImage.relocate_length _ p address
  have hends := hkeeps _ (List.length_replicate (n := p.sizeOfImage.toNat) (a := (0 : UInt8)))
  unfold place at h
  dsimp only at h
  split at h
  · rename_i loaded heq
    cases h
    exact hends.of_ok heq
  · cases h

end PlatformInit
