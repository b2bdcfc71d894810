import PlatformInit.Bytes.Field
import PlatformInit.Status
import PlatformInit.Word.Align

/-!
Configuration (UPD) blocks: a signed header, and in the block of the memory component the fields
that the boot loader owns.
-/
set_option autoImplicit false
namespace PlatformInit

namespace Bytes

/-- Writes the parts at their offsets, in order, up to the first that does not fit; says whether all
were written. -/
def putAll : List (Nat × Bytes) → Bytes → Bytes × Bool
  | [], bytes => (bytes, true)
  | (offset, part) :: parts, bytes =>
    match bytes.overwrite? offset part with
    | none => (bytes, false)
    | some bytes => putAll parts bytes

end Bytes

namespace BootMode

def fullConfiguration : UInt32 := 0x00
def minimalConfiguration : UInt32 := 0x01
def noConfigurationChanges : UInt32 := 0x02
def s3Resume : UInt32 := 0x11
def flashUpdate : UInt32 := 0x12

end BootMode

structure UpdHeader where
  signature : UInt64
  revision : UInt8
  deriving DecidableEq

namespace UpdHeader

def tempRamMagic : UInt64 := 0x545F4450554D4551

def memoryMagic : UInt64 := 0x4D5F4450554D4551

def siliconMagic : UInt64 := 0x535F4450554D4551

def size : Nat := 0x20

def read (upd : Bytes) : Except BootError UpdHeader :=
  match upd.u64? 0, upd.u8? 8 with
  | some signature, some revision => .ok ⟨signature, revision⟩
  | _, _ => .error .configurationInvalid

end UpdHeader

structure UpdArch where
  revision : UInt8
  nvsBuffer : UInt32
  stackBase : UInt32
  stackSize : UInt32
  tolumSize : UInt32
  bootMode : UInt32
  deriving DecidableEq

namespace UpdArch

def offset : Nat := UpdHeader.size
def size : Nat := 0x20

def fields? (upd : Bytes) : Option UpdArch := do
  return {
    revision := ← upd.u8? offset
    nvsBuffer := ← upd.u32? (offset + 4)
    stackBase := ← upd.u32? (offset + 8)
    stackSize := ← upd.u32? (offset + 12)
    tolumSize := ← upd.u32? (offset + 16)
    bootMode := ← upd.u32? (offset + 20) }

def read (upd : Bytes) : Except BootError UpdArch :=
  match fields? upd with
  | none => .error .configurationInvalid
  | some a => .ok a

/-- The block with the fields written as far as it reaches. -/
def write (a : UpdArch) (upd : Bytes) : Bytes × Except BootError Unit :=
  let (upd, complete) := Bytes.putAll
    [(offset, [a.revision]), (offset + 4, le32 a.nvsBuffer), (offset + 8, le32 a.stackBase),
      (offset + 12, le32 a.stackSize), (offset + 16, le32 a.tolumSize),
      (offset + 20, le32 a.bootMode)] upd
  (upd, if complete then .ok () else .error .configurationInvalid)

end UpdArch

namespace Upd

/-- Overwrites the fields that the boot loader owns. -/
def applyLoaderDefaults (upd : Bytes) : Bytes × Except BootError Unit :=
  match UpdArch.read upd with
  | .error e => (upd, .error e)
  | .ok a =>
    { a with tolumSize := 0, bootMode := BootMode.fullConfiguration, nvsBuffer := 0 }.write upd

/-- A memory component's block must be signed, name a stack, and reserve whole pages for the boot
loader. -/
def checkMemory (upd : Bytes) : Except BootError Unit := do
  let header ← UpdHeader.read upd
  let arch ← UpdArch.read upd
  if header.signature = UpdHeader.memoryMagic ∧ arch.stackBase ≠ 0
      ∧ arch.tolumSize.toUInt64 % pageSize = 0 then return ()
  else throw .configurationInvalid

def checkSilicon (upd : Bytes) : Except BootError Unit := do
  let header ← UpdHeader.read upd
  if header.signature = UpdHeader.siliconMagic then return () else throw .configurationInvalid

end Upd
end PlatformInit
