import PlatformInit.Hob.Codec
import PlatformInit.Memory
import PlatformInit.Word.Align

/-!
The record that the loader of the management mode (MM) core shares with the core, and the machine
state that both act on.

The address of the record is published in the hand-off list. The core finds its mailbox there, and
writes the size and the status of its reply back to it.
-/
set_option autoImplicit false
namespace PlatformInit

structure CoreImage where
  base : UInt64
  size : UInt64
  entryPoint : UInt64
  deriving DecidableEq

structure CoreRecord where
  signature : UInt32
  inMm : Bool
  registered : Bool
  image : CoreImage
  /-- Where the SMRAM ranges are listed, and how many there are. -/
  ranges : UInt64 × UInt64
  bootVolume : UInt64
  buffer : UInt64
  bufferSize : UInt64
  status : Status
  deriving DecidableEq

namespace CoreRecord

def magic : UInt32 := 0x636D6D73

def zero : CoreRecord := ⟨0, false, false, ⟨0, 0, 0⟩, (0, 0), 0, 0, 0, 0⟩

def new : CoreRecord := { zero with signature := magic }

def size : UInt64 := 80

def post (r : CoreRecord) (buffer bufferSize : UInt64) : CoreRecord :=
  { r with status := Status.success, buffer, bufferSize }

def reply (r : CoreRecord) (bufferSize : UInt64) (status : Status) : CoreRecord :=
  { r with bufferSize, status }

def clear (r : CoreRecord) : CoreRecord := { r with buffer := 0 }

end CoreRecord

/-- The state shared with the MM core, and the world around it. -/
structure Machine (ω : Type) where
  memory : Memory
  cores : UInt64 → CoreRecord
  /-- Where the next thing that lives until reset is put. -/
  free : UInt64
  world : ω

namespace Machine
variable {ω ε α : Type}

def new (free : UInt64) (world : ω) : Machine ω := ⟨.blank, fun _ => .zero, free, world⟩

def onWorld (x : Step ω ε α) : Step (Machine ω) ε α :=
  Step.focus Machine.world (fun w m => { m with world := w }) x

def putCore (m : Machine ω) (address : UInt64) (r : CoreRecord) : Machine ω :=
  { m with cores := fun a => if a = address then r else m.cores a }

def updateCore (m : Machine ω) (address : UInt64) (f : CoreRecord → CoreRecord) : Machine ω :=
  m.putCore address (f (m.cores address))

theorem cores_updateCore (m : Machine ω) (core : UInt64) (f : CoreRecord → CoreRecord) :
    (m.updateCore core f).cores core = f (m.cores core) := if_pos rfl

def store (m : Machine ω) (bytes : Bytes) : Machine ω × UInt64 :=
  ({ m with
      memory := m.memory.write m.free.toNat bytes
      free := m.free + .ofNat (bytes.padTo 8).length }, m.free)

def newCore (m : Machine ω) : Machine ω × UInt64 :=
  ({ m.putCore m.free .new with free := m.free + CoreRecord.size }, m.free)

end Machine

namespace HobList

def publishCore (hobs : HobList) (address : UInt64) : HobList :=
  hobs ++ [.guidExtension Guid.mmCoreData (le64 address)]

/-- The address of the record that the list publishes first; a list without one, or with one that
is not signed, belongs to a machine without an MM core. -/
def findCore (hobs : HobList) (cores : UInt64 → CoreRecord) : Except EfiError UInt64 :=
  match (hobs.dataOf? Guid.mmCoreData).bind (·.u64? 0) with
  | none => .error .unsupported
  | some address =>
    if address = 0 ∨ (cores address).signature ≠ CoreRecord.magic then .error .unsupported
    else .ok address

end HobList
end PlatformInit
