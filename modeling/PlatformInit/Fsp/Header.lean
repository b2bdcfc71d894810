import PlatformInit.Bytes.Field
import PlatformInit.Status

/-!
The information header of a silicon support package (FSP) component.
-/
set_option autoImplicit false
namespace PlatformInit

/-- Sizes, identity and entry offsets of a component; an entry offset of zero stands for no entry. -/
structure FspHeader where
  signature : UInt32
  headerLength : UInt32
  specVersion : UInt8
  headerRevision : UInt8
  imageRevision : UInt32
  imageId : UInt64
  imageSize : UInt32
  imageBase : UInt32
  imageAttribute : UInt16
  componentAttribute : UInt16
  configOffset : UInt32
  configSize : UInt32
  tempRamInit : UInt32
  notifyPhase : UInt32
  memoryInit : UInt32
  tempRamExit : UInt32
  siliconInit : UInt32
  deriving DecidableEq

namespace FspHeader

def magic : UInt32 := 0x48505346

def size : Nat := 0x48

def read? (bytes : Bytes) : Option FspHeader := do
  return {
    signature := ← bytes.u32? 0x00
    headerLength := ← bytes.u32? 0x04
    specVersion := ← bytes.u8? 0x0A
    headerRevision := ← bytes.u8? 0x0B
    imageRevision := ← bytes.u32? 0x0C
    imageId := ← bytes.u64? 0x10
    imageSize := ← bytes.u32? 0x18
    imageBase := ← bytes.u32? 0x1C
    imageAttribute := ← bytes.u16? 0x20
    componentAttribute := ← bytes.u16? 0x22
    configOffset := ← bytes.u32? 0x24
    configSize := ← bytes.u32? 0x28
    tempRamInit := ← bytes.u32? 0x30
    notifyPhase := ← bytes.u32? 0x38
    memoryInit := ← bytes.u32? 0x3C
    tempRamExit := ← bytes.u32? 0x40
    siliconInit := ← bytes.u32? 0x44 }

/-- The header of a component found at `base`, whose signature and declared base must agree. -/
def validate (bytes : Bytes) (base : UInt64) : Except BootError FspHeader :=
  match read? bytes with
  | none => .error .configurationInvalid
  | some h =>
    if h.signature = magic ∧ h.imageBase.toUInt64 = base then .ok h
    else .error .configurationInvalid

def configBase (h : FspHeader) : UInt64 := h.imageBase.toUInt64 + h.configOffset.toUInt64

end FspHeader
end PlatformInit
