import PlatformInit.Bytes.Field

/-!
GUIDs and the well-known ones of the boot stages.
-/
set_option autoImplicit false
namespace PlatformInit

/-- A GUID by the groups of its textual form. The last two groups, eight bytes in all, are kept as
one number whose most significant byte comes first in memory. -/
structure Guid where
  time : UInt32
  timeMid : UInt16
  timeHigh : UInt16
  node : UInt64
  deriving DecidableEq

namespace Guid

def toBytes (g : Guid) : Bytes :=
  le32 g.time ++ le16 g.timeMid ++ le16 g.timeHigh ++ (le64 g.node).reverse

def read? (bytes : Bytes) (offset : Nat) : Option Guid := do
  let time ← bytes.u32? offset
  let timeMid ← bytes.u16? (offset + 4)
  let timeHigh ← bytes.u16? (offset + 6)
  let node ← bytes.slice? (offset + 8) 8
  return ⟨time, timeMid, timeHigh, .ofNat (leValue node.reverse)⟩

@[simp] theorem length_toBytes (g : Guid) : g.toBytes.length = 16 := by
  simp [toBytes]

def zero : Guid := ⟨0, 0, 0, 0⟩

def reservedMemory : Guid := ⟨0x69a79759, 0x1373, 0x4367, 0xa6c4c7f59efd986e⟩

def bootLoaderMemory : Guid := ⟨0x73ff4f56, 0xaa8e, 0x4451, 0xb31636353667ad44⟩

def tsegMemory : Guid := ⟨0xd038747c, 0xd00c, 0x4980, 0xb319490199a47d55⟩

def smramMemory : Guid := ⟨0x6dadf1d1, 0xd4cc, 0x4910, 0xbb6e82b1fd80ff3d⟩

def mmCoreData : Guid := ⟨0xa160bf99, 0x2aa4, 0x4d7d, 0x9993899cb12df376⟩

def driverDispatch : Guid := ⟨0x7081e22f, 0xcac6, 0x4053, 0x9468675782cf88e5⟩

/-- Protocol whose presence says that MM may be locked. -/
def readyToLock : Guid := ⟨0x60ff8964, 0xe906, 0x41d0, 0xafedf241e974e08e⟩

def endOfDxe : Guid := ⟨0x02ce967a, 0xdd7e, 0x4ffc, 0x9ee7810cf0470880⟩

def readyToBoot : Guid := ⟨0x7ce88fb3, 0x4bd7, 0x4679, 0x87a8a8d8dee50d2b⟩

def legacyBoot : Guid := ⟨0x2a571201, 0x4966, 0x47f6, 0x8b86f31e41f32f10⟩

def virtualAddressChange : Guid := ⟨0x13fa7698, 0xc831, 0x49c7, 0x87ea8f43fcc25196⟩

def systemTableInfo : Guid := ⟨0xa37721e4, 0x8c0b, 0x4bca, 0xb5e8e902a025514e⟩

def volumeDispatch : Guid := ⟨0xb65694cc, 0x09e3, 0x4c3b, 0xb5cd05f44d3cdbff⟩

def fileSystem2 : Guid := ⟨0x8c8ce578, 0x8a3d, 0x4f1c, 0x9935896185c32dd3⟩

def fileSystem3 : Guid := ⟨0x5473c07a, 0x3dcb, 0x4dca, 0xbd6f1e9689e7349a⟩

end Guid
end PlatformInit
