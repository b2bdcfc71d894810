import PlatformInit.Bytes.Field
import PlatformInit.Port.Pci
import PlatformInit.Status

/-!
Software management mode interrupts (MMIs). One is synchronous: it is over when the write that
raises it is.
-/
set_option autoImplicit false
namespace PlatformInit

/-- Raises a software MMI, over a state `σ`, with a command, a request for periodic activation and
an interval. -/
structure MmiTrigger (σ : Type) where
  trigger : Option Bytes → Bool → UInt64 → Attempt σ EfiError Unit

structure MmiPorts where
  command : UInt16 := 0xB2
  /-- This port is cleared first. -/
  data : UInt16 := 0xB3
  defaultCommand : UInt8 := 0xFF

namespace MmiPorts
variable {σ : Type}

def raise (p : MmiPorts) (io : IoPort σ) (value : UInt8) (s : σ) : σ :=
  io.write8 p.command value (io.write8 p.data 0 s)

/-- The trigger over these ports. Commands are single bytes, and periodic activation is not
supported. -/
def trigger (p : MmiPorts) (io : IoPort σ) : MmiTrigger σ where
  trigger command periodic interval s :=
    if periodic ∨ interval ≠ 0 then .error .deviceError s
    else
      match command with
      | none => .ok () (p.raise io p.defaultCommand s)
      | some [value] => .ok () (p.raise io value s)
      | some _ => .error .invalidParameter s

def start (p : MmiPorts) (io : IoPort σ) (platformInit : Option (Attempt σ EfiError Unit)) :
    Attempt σ EfiError (MmiTrigger σ) := do
  match platformInit with
  | none => return p.trigger io
  | some set =>
    set
    return p.trigger io

end MmiPorts
end PlatformInit
