import PlatformInit.Pe.Image

/-!
A reader of portable executables for runs on given images. Of the directories it reads the base
relocations, and it knows the short names of sections only.
-/
set_option autoImplicit false
namespace PlatformInit
namespace Bench

inductive PeWidth where
  | narrow
  | wide
  deriving DecidableEq

namespace PeWidth

def ofMagic? : UInt16 → Option PeWidth
  | 0x10B => some narrow
  | 0x20B => some wide
  | _ => none

def fieldsSize : PeWidth → Nat
  | narrow => 96
  | wide => 112

end PeWidth

namespace PeReading

def peMagic : UInt32 := 0x00004550

def coffEnd : Nat := PeImage.signatureSize + PeImage.coffHeaderSize

def sectionSize : Nat := 40

def maxDirectories : Nat := 16

def relocationIndex : Nat := 5

def section? (bytes : Bytes) (offset : Nat) : Option PeSection := do
  return {
    name := ← bytes.slice? offset 8
    virtualSize := ← bytes.u32? (offset + 8)
    virtualAddress := ← bytes.u32? (offset + 12)
    rawSize := ← bytes.u32? (offset + 16)
    rawPointer := ← bytes.u32? (offset + 20)
    relocationsPointer := ← bytes.u32? (offset + 24)
    lineNumbersPointer := ← bytes.u32? (offset + 28)
    characteristics := ← bytes.u32? (offset + 36) }

def directory? (bytes : Bytes) (offset : Nat) : Option PeDirectory := do
  let address ← bytes.u32? offset
  let size ← bytes.u32? (offset + 4)
  if address = 0 ∧ size = 0 then none else some ⟨address, size⟩

def optional? (bytes : Bytes) (offset : Nat) : Option (PeWidth × PeOptionalHeader) := do
  let width ← PeWidth.ofMagic? (← bytes.u16? offset)
  let fields ← bytes.slice? offset width.fieldsSize
  let count ← bytes.u32? (offset + width.fieldsSize - 4)
  let directories ← bytes.slice? (offset + width.fieldsSize) (8 * count.toNat)
  if maxDirectories < count.toNat then none
  else
    return (width, {
      entryPoint := ← fields.u32? 16
      sectionAlignment := ← fields.u32? 32
      sizeOfImage := ← fields.u32? 56
      sizeOfHeaders := ← fields.u32? 60
      relocations := directory? directories (8 * relocationIndex) })

def sections? (bytes : Bytes) (offset count : Nat) : Option (List PeSection) :=
  if bytes.length / sectionSize < count then none
  else (List.range count).mapM fun i => section? bytes (offset + sectionSize * i)

def headers? (bytes : Bytes) : Option PeHeaders := do
  let pointer ← bytes.u32? 0x3C
  let offset := pointer.toNat
  if offset ≤ 0x40 then none
  let magic ← bytes.u32? offset
  if magic ≠ peMagic then none
  let count ← bytes.u16? (offset + 6)
  let optionalSize ← bytes.u16? (offset + 20)
  let _ ← bytes.slice? offset coffEnd
  let optional ← if optionalSize = 0 then some none
    else (optional? bytes (offset + coffEnd)).map some
  let sections ← sections? bytes (offset + coffEnd + optionalSize.toNat) count.toNat
  return {
    pointer
    wide := optional.any fun (width, _) => width = .wide
    optional := optional.map Prod.snd
    sections }

end PeReading

def peReader : PeReader := ⟨PeReading.headers?⟩

end Bench

/-- What `Bench.peReader` finds in an image. -/
def PeImage.parse (image : Bytes) : Except PeError PeImage := Bench.peReader.parse image

end PlatformInit
