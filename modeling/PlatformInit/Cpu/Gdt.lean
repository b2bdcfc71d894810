import PlatformInit.Bytes.Field

/-!
The global descriptor table of a boot stage: flat segments of 4 GiB, and two of 64 KiB for code and
data in 16-bit mode.
-/
set_option autoImplicit false
namespace PlatformInit.Gdt

def linearData : UInt64 := 0x00CF92000000FFFF

def linearCode : UInt64 := 0x00CF9B000000FFFF

def systemData : UInt64 := 0x00CF93000000FFFF

def linearCode64 : UInt64 := 0x00AF9B000000FFFF

def code16 : UInt64 := 0x00009B000000FFFF

def data16 : UInt64 := 0x000092000000FFFF

def code64Selector : UInt16 := 0x20

/-- The descriptors in selector order; the first one is never used. -/
def entries : List UInt64 :=
  [0, linearData, linearCode, systemData, linearCode64, code16, data16]

def toBytes : Bytes := entries.flatMap le64

def size : Nat := 8 * entries.length

def limit : UInt16 := .ofNat (size - 1)

end PlatformInit.Gdt
