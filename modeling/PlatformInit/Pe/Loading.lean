import PlatformInit.Pe.Relocation

/-!
Laying out an image in memory and moving it to its final address.
-/
set_option autoImplicit false
namespace PlatformInit.PeImage

def copy (image : Bytes) (source target length : Nat) : Step Bytes PeError Unit := do
  let loaded ← get
  if loaded.reaches (target + length) then
    match image.slice? source length with
    | none => Step.fail (.bufferTooShort length .image)
    | some part => set (loaded.overwrite target part)
  else Step.fail (.bufferTooShort length .loadedImage)

/-- Fills the buffer with zeros, then copies the headers and each section to its place. -/
def load (p : PeImage) (image : Bytes) : Step Bytes PeError Unit := do
  modify fun loaded => List.replicate loaded.length 0
  copy image 0 0 p.sizeOfHeaders.toNat
  p.sections.forM fun s =>
    copy image s.rawPointer.toNat s.virtualAddress.toNat s.loadedSize.toNat

/-- Records `destination` as the image base, and applies the fixups if the image moves. -/
def relocate (p : PeImage) (destination : UInt64) : Step Bytes PeError Unit := do
  let image ← get
  match image.u64? p.imageBaseOffset with
  | none => Step.fail .unreadable
  | some base =>
    let image := image.overwrite p.imageBaseOffset (le64 destination)
    set image
    match p.relocations with
    | none => return ()
    | some directory =>
      if destination = base then return ()
      else
        match image.slice? directory.address.toNat directory.size.toNat with
        | none => Step.fail (.bufferTooShort directory.size.toNat .image)
        | some data =>
          let blocks ← Step.ofExcept (RelocationBlock.readAll data)
          blocks.forM (RelocationBlock.apply (destination - base))

end PlatformInit.PeImage
