import PlatformInit.Proofs.Pe.Relocating

/-!
Moving an image that was moved before.

As long as the base, the directory and the words that the entries name have no byte in common, a move
leaves an image that lists the same entries. The adjustments of several moves then add up, and only
the last base counts.
-/
set_option autoImplicit false
namespace PlatformInit.PeImage

def directoryParts (p : PeImage) : List Extent :=
  p.relocations.toList.map fun d => ⟨d.address.toNat, d.size.toNat⟩

/-- The parts of the image that a move reads or writes: the base, the directory, and the words that the
entries name. -/
def movingParts (p : PeImage) (image : Bytes) : List Extent :=
  p.baseField :: (p.directoryParts ++ Relocation.fields (p.fixups image))

variable {p : PeImage} {image image' : Bytes} {base destination : UInt64} {rs : List Relocation}

theorem listed_congr (hlength : image.length = image'.length)
    (h : ∀ e ∈ p.directoryParts, Bytes.Agree e image image') : p.listed image = p.listed image' := by
  rw [listed, listed]
  cases hdirectory : p.relocations with
  | none => rfl
  | some directory =>
    have hmem : ⟨directory.address.toNat, directory.size.toNat⟩ ∈ p.directoryParts := by
      rw [directoryParts, hdirectory]
      exact List.mem_singleton_self _
    have hslice : image.slice? directory.address.toNat directory.size.toNat =
        image'.slice? directory.address.toNat directory.size.toNat :=
      Bytes.slice?_congr hlength (h _ hmem)
    dsimp only
    rw [hslice]

/-- An image that can be moved anywhere, with the entries that it lists. -/
structure Movable (p : PeImage) (image : Bytes) (base : UInt64) (rs : List Relocation) : Prop where
  recorded : image.u64? p.imageBaseOffset = some base
  listed : p.listed image = .ok rs
  applies : ∀ r ∈ rs, r.Applies image.length
  apart : (p.baseField :: (p.directoryParts ++ Relocation.fields rs)).Pairwise Extent.Apart

namespace Movable
variable (h : Movable p image base rs)
include h

theorem fits : p.baseField.Within image.length := baseField_within h.recorded

theorem base_apart_directory : ∀ e ∈ p.directoryParts, e.Apart p.baseField := fun e he =>
  ((List.pairwise_cons.mp h.apart).1 e (List.mem_append_left _ he)).symm

theorem base_apart_fields : ∀ e ∈ Relocation.fields rs, p.baseField.Apart e := fun e he =>
  (List.pairwise_cons.mp h.apart).1 e (List.mem_append_right _ he)

theorem directory_apart_fields : ∀ e ∈ p.directoryParts, ∀ f ∈ Relocation.fields rs, e.Apart f :=
  (List.pairwise_append.mp (List.pairwise_cons.mp h.apart).2).2.2

theorem fields_apart : (Relocation.fields rs).Pairwise Extent.Apart :=
  (List.pairwise_append.mp (List.pairwise_cons.mp h.apart).2).2.1

theorem listed_rebased (destination : UInt64) : p.listed (p.rebased destination image) = .ok rs := by
  have hagree : ∀ e ∈ p.directoryParts, Bytes.Agree e (p.rebased destination image) image := fun e he =>
    agree_rebased destination h.fits (h.base_apart_directory e he)
  rw [listed_congr (length_rebased destination h.fits) hagree, h.listed]

theorem moved (destination adjustment : UInt64) :
    Movable p (p.moved destination adjustment rs image) destination rs := by
  have hlength : (p.moved destination adjustment rs image).length = image.length :=
    length_moved h.fits h.applies
  have hagree : ∀ e ∈ p.directoryParts, Bytes.Agree e (p.moved destination adjustment rs image) image :=
    fun e he => agree_moved h.fits h.applies (h.base_apart_directory e he) (h.directory_apart_fields e he)
  exact
    { recorded := base_moved h.fits h.applies h.base_apart_fields
      listed := (listed_congr hlength hagree).trans h.listed
      applies := hlength.symm ▸ h.applies
      apart := h.apart }

theorem relocate (destination : UInt64) :
    p.relocate destination image = .ok () (p.moved destination (destination - base) rs image) := by
  refine relocate_eq_ok_iff.mpr ⟨base, h.recorded, ?_⟩
  by_cases hsame : destination = base
  · refine .inl ⟨hsame, ?_⟩
    rw [hsame, PeImage.moved, rebased_base h.recorded, UInt64.sub_self]
    exact Bytes.foldl_adjusted_zero (Relocation.within_of_mem_fields h.applies)
  · exact .inr ⟨hsame, rs, h.listed_rebased destination, h.applies, rfl⟩

theorem moved_moved (first second a b : UInt64) :
    p.moved second b rs (p.moved first a rs image) = p.moved second (a + b) rs image := by
  have hwithin := fields_within_rebased h.fits h.applies first
  have hwidth : ∀ e ∈ Relocation.fields rs, e.length ≤ 8 := fun e => Relocation.length_of_mem_fields
  have hapart : ∀ e ∈ Relocation.fields rs,
      e.Apart ⟨p.imageBaseOffset, (le64 second).length⟩ := fun e he => by
    rw [length_le64]
    exact (h.base_apart_fields e he).symm
  have hfits : p.imageBaseOffset + (le64 second).length ≤ (p.rebased first image).length := by
    rw [length_rebased first h.fits, length_le64]
    exact h.fits
  have hagain : p.rebased second (p.rebased first image) = p.rebased second image :=
    Bytes.overwrite_overwrite (by rw [length_le64]; exact h.fits) (by rw [length_le64, length_le64])
  -- The first adjustments leave the base alone, so that the second base could have been recorded before them.
  have hexchange : p.rebased second ((Relocation.fields rs).foldl (Bytes.adjusted a) (p.rebased first image)) =
      (Relocation.fields rs).foldl (Bytes.adjusted a) (p.rebased second (p.rebased first image)) :=
    (Bytes.foldl_adjusted_overwrite hwithin hfits hapart).symm
  change (Relocation.fields rs).foldl (Bytes.adjusted b) (p.rebased second
    ((Relocation.fields rs).foldl (Bytes.adjusted a) (p.rebased first image))) = _
  rw [hexchange, hagain, Bytes.foldl_adjusted_foldl (fields_within_rebased h.fits h.applies second) hwidth
    h.fields_apart]
  rfl

theorem relocate_moved (first second : UInt64) :
    p.relocate second (p.moved first (first - base) rs image) = p.relocate second image := by
  have hsum : first - base + (second - first) = second - base := by grind
  rw [(h.moved first (first - base)).relocate second, h.relocate second, h.moved_moved, hsum]

/-- However often an image is moved, only the last move counts. -/
theorem relocate_often (destinations : List UInt64) (last : UInt64) :
    (destinations ++ [last]).forM p.relocate image = p.relocate last image := by
  induction destinations generalizing image base with
  | nil =>
    change (p.relocate last >>= fun _ => pure ()) image = _
    rw [Step.bind_of_ok (h.relocate last), h.relocate last]
    rfl
  | cons first rest ih =>
    change (p.relocate first >>= fun _ => (rest ++ [last]).forM p.relocate) image = _
    rw [Step.bind_of_ok (h.relocate first), ih (h.moved first (first - base)), h.relocate_moved]

end Movable

theorem movable_of_relocate (h : p.relocate destination image = .ok () image')
    (hapart : (p.movingParts image).Pairwise Extent.Apart)
    (hbase : image.u64? p.imageBaseOffset = some base) (hmoved : destination ≠ base) :
    ∃ rs, Movable p image base rs ∧ image' = p.moved destination (destination - base) rs image := by
  obtain ⟨base', hbase', ⟨hsame, -⟩ | ⟨-, rs, hlisted, happly, hend⟩⟩ := relocate_eq_ok_iff.mp h
  · cases hbase.symm.trans hbase'
    exact absurd hsame hmoved
  cases hbase.symm.trans hbase'
  have hfits := baseField_within hbase
  have hagree : ∀ e ∈ p.directoryParts, Bytes.Agree e (p.rebased destination image) image := fun e he =>
    agree_rebased destination hfits
      ((List.pairwise_cons.mp hapart).1 e (List.mem_append_left _ he)).symm
  rw [listed_congr (length_rebased destination hfits) hagree] at hlisted
  rw [movingParts, fixups_eq hlisted] at hapart
  exact ⟨rs, ⟨hbase, hlisted, happly, hapart⟩, hend⟩

/-- A second move does what it would have done to the original image. -/
theorem relocate_composes (p : PeImage) (image image' : Bytes) (first : UInt64)
    (hapart : (p.movingParts image).Pairwise Extent.Apart)
    (h : p.relocate first image = .ok () image') :
    (∀ second, p.relocate second image' = p.relocate second image) ∧
      (∀ base, image.u64? p.imageBaseOffset = some base → p.relocate base image' = .ok () image) ∧
      p.relocate first image' = .ok () image' := by
  obtain ⟨base, hbase, -⟩ := relocate_eq_ok_iff.mp h
  have hback : p.relocate base image = .ok () image :=
    relocate_eq_ok_iff.mpr ⟨base, hbase, .inl ⟨rfl, rfl⟩⟩
  have hagain : ∀ second, p.relocate second image' = p.relocate second image := by
    intro second
    by_cases hmoved : first = base
    · -- Nothing was moved, so that nothing is known of the entries, and nothing need be.
      subst hmoved
      cases hback.symm.trans h
      rfl
    · obtain ⟨rs, hmovable, rfl⟩ := movable_of_relocate h hapart hbase hmoved
      exact hmovable.relocate_moved first second
  refine ⟨hagain, fun base' hbase' => ?_, (hagain first).trans h⟩
  cases hbase.symm.trans hbase'
  exact (hagain base).trans hback

theorem relocate_composes_tiny :
    (tinyHeaders.movingParts (tinyImage 0x10000000)).Pairwise Extent.Apart ∧
      tinyHeaders.relocate 0x80000000 (tinyImage 0x10000000) = .ok () (tinyImage 0x80000000) ∧
      tinyHeaders.relocate 0x10000000 (tinyImage 0x80000000) = .ok () (tinyImage 0x10000000) ∧
      tinyHeaders.relocate 0x80000000 (tinyImage 0x80000000) = .ok () (tinyImage 0x80000000) := by
  have hlisted : tinyHeaders.listed (tinyImage 0x10000000) = .ok [⟨0, 0x3014⟩, ⟨0, 0xA018⟩] := by
    decide +kernel
  have hapart : (tinyHeaders.movingParts (tinyImage 0x10000000)).Pairwise Extent.Apart := by
    rw [movingParts, fixups_eq hlisted]
    decide
  obtain ⟨-, hback, hsame⟩ := relocate_composes _ _ _ _ hapart relocate_tiny
  exact ⟨hapart, relocate_tiny, hback _ (by decide), hsame⟩

end PlatformInit.PeImage
