import PlatformInit.Fault

/-!
I/O ports, and the PCI configuration registers behind two of them.
-/
set_option autoImplicit false
namespace PlatformInit

structure IoPort (σ : Type) where
  read16 : UInt16 → σ → UInt16 × σ
  read32 : UInt16 → σ → UInt32 × σ
  write8 : UInt16 → UInt8 → σ → σ
  write16 : UInt16 → UInt16 → σ → σ
  write32 : UInt16 → UInt32 → σ → σ

structure PciFunction where
  bus : UInt8
  device : UInt8
  function : UInt8
  deriving DecidableEq

namespace Pci
variable {σ : Type}

def addressPort : UInt16 := 0xCF8
def dataPort : UInt16 := 0xCFC

def configAddress (f : PciFunction) (register : UInt8) : UInt32 :=
  (0x80000000 : UInt32) ||| f.bus.toUInt32 <<< 16 ||| (f.device &&& 0x1F).toUInt32 <<< 11
    ||| (f.function &&& 0x7).toUInt32 <<< 8 ||| (register &&& 0xFC).toUInt32

def select (io : IoPort σ) (f : PciFunction) (register : UInt8) (s : σ) : σ :=
  io.write32 addressPort (configAddress f register) s

def read32 (io : IoPort σ) (f : PciFunction) (register : UInt8) (s : σ) : UInt32 × σ :=
  io.read32 dataPort (select io f register s)

def or16 (io : IoPort σ) (f : PciFunction) (register : UInt8) (bits : UInt16) (s : σ) : σ :=
  let port := dataPort + (register &&& 0x2).toUInt16
  let (value, s) := io.read16 port (select io f register s)
  io.write16 port (value ||| bits) (select io f register s)

end Pci
end PlatformInit
