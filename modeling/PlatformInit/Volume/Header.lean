import PlatformInit.Guid
import PlatformInit.Status

/-!
Firmware volumes: the header and the bytes it covers.
-/
set_option autoImplicit false
namespace PlatformInit

inductive VolumeError where
  | invalidHeader
  | truncated
  | notFound
  deriving DecidableEq

namespace VolumeError

def all : List VolumeError := [invalidHeader, truncated, notFound]

def name : VolumeError → String
  | invalidHeader => "InvalidHeader"
  | truncated => "Truncated"
  | notFound => "NotFound"

def toEfi : VolumeError → EfiError
  | invalidHeader => .volumeCorrupted
  | truncated => .volumeCorrupted
  | notFound => .notFound

end VolumeError

structure VolumeHeader where
  fileSystem : Guid
  length : UInt64
  signature : UInt32
  attributes : UInt32
  headerLength : UInt16
  checksum : UInt16
  extHeaderOffset : UInt16
  revision : UInt8
  deriving DecidableEq

namespace VolumeHeader

def magic : UInt32 := 0x4856465F

def lengthOffset : Nat := 0x20
def signatureOffset : Nat := 0x28

def size : Nat := 0x38

def fields? (bytes : Bytes) : Option VolumeHeader := do
  return {
    fileSystem := ← Guid.read? bytes 0x10
    length := ← bytes.u64? lengthOffset
    signature := ← bytes.u32? signatureOffset
    attributes := ← bytes.u32? 0x2C
    headerLength := ← bytes.u16? 0x30
    checksum := ← bytes.u16? 0x32
    extHeaderOffset := ← bytes.u16? 0x34
    revision := ← bytes.u8? 0x37 }

def read (bytes : Bytes) : Except VolumeError VolumeHeader :=
  match fields? bytes with
  | none => .error .truncated
  | some h =>
    if h.signature ≠ magic ∨ h.headerLength.toNat < size then .error .invalidHeader else .ok h

end VolumeHeader

structure Volume where
  header : VolumeHeader
  bytes : Bytes

/-- The volume at the beginning of `bytes`; bytes beyond its length are dropped. -/
def Volume.read (bytes : Bytes) : Except VolumeError Volume := do
  let header ← VolumeHeader.read bytes
  match bytes.slice? 0 header.length.toNat with
  | none => .error .truncated
  | some covered => return ⟨header, covered⟩

end PlatformInit
