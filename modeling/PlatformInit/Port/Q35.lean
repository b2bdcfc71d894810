import PlatformInit.Port.Pci
import PlatformInit.Status

/-!
Software MMIs on a Q35 machine: the bridge is set to raise one when its command port is written, and
that setting is locked.
-/
set_option autoImplicit false
namespace PlatformInit.Q35
variable {σ : Type}

def bridge : PciFunction := ⟨0, 31, 0⟩

def powerBaseRegister : UInt8 := 0x40
def powerBaseMask : UInt32 := 0xFF80

def enableOffset : UInt16 := 0x30

def globalEnable : UInt32 := 0x01

def commandEnable : UInt32 := 0x20

def lockRegister : UInt8 := 0xA0

def enableLock : UInt16 := 0x10

def enablePort (io : IoPort σ) (s : σ) : UInt16 × σ :=
  let (base, s) := Pci.read32 io bridge powerBaseRegister s
  ((base &&& powerBaseMask).toUInt16 + enableOffset, s)

/-- Enables software MMIs. A command bit that is set after reset shows a machine without them, and a
global bit that can be cleared one whose setting cannot be locked. -/
def enableMmi (io : IoPort σ) : Attempt σ EfiError Unit := fun s =>
  let (port, s) := enablePort io s
  let (value, s) := io.read32 port s
  if value &&& commandEnable ≠ 0 then .error .unsupported s
  else
    let value := value ||| (commandEnable ||| globalEnable)
    let s := Pci.or16 io bridge lockRegister enableLock (io.write32 port value s)
    let (kept, s) := io.read32 port (io.write32 port (value &&& ~~~globalEnable) s)
    if kept = value then .ok () s else .error .deviceError s

end PlatformInit.Q35
