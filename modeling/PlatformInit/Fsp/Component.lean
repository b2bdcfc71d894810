import PlatformInit.Fault
import PlatformInit.Fsp.Header

/-!
A silicon support package (FSP) component and calls to its interfaces.

A call goes through a gate, which runs foreign code at an address. A configuration block is handed
over to be changed in place, whatever the call then answers.
-/
set_option autoImplicit false
namespace PlatformInit

inductive NotifyPhase where
  | afterPciEnumeration
  | readyToBoot
  | endOfFirmware
  deriving DecidableEq

namespace NotifyPhase

def all : List NotifyPhase := [afterPciEnumeration, readyToBoot, endOfFirmware]

def code : NotifyPhase → UInt32
  | afterPciEnumeration => 0x20
  | readyToBoot => 0x40
  | endOfFirmware => 0xF0

def name : NotifyPhase → String
  | afterPciEnumeration => "AfterPciEnumeration"
  | readyToBoot => "ReadyToBoot"
  | endOfFirmware => "EndOfFirmware"

end NotifyPhase

inductive FspCall where
  | memoryInit (upd : Bytes)
  | tempRamExit
  | siliconInit (upd : Bytes)
  | notifyPhase (phase : NotifyPhase)
  deriving DecidableEq

def FspCall.upd : FspCall → Bytes
  | memoryInit upd => upd
  | siliconInit upd => upd
  | tempRamExit => []
  | notifyPhase _ => []

/-- What a call leaves behind: its status, the hand-off list that it names, and the block. -/
structure FspReply where
  status : Status
  hobList : UInt64
  upd : Bytes

structure CallGate (ω : Type) where
  call : UInt64 → FspCall → ω → FspReply × ω

structure FspComponent where
  header : FspHeader
  image : Bytes
  deriving DecidableEq

namespace FspComponent
variable {ω : Type}

def headerOffset : Nat := 0x94

/-- The component found at `base`, whose configuration region must lie in the image. -/
def ofImage (image : Bytes) (base : UInt64) : Except BootError FspComponent :=
  match image.slice? headerOffset FspHeader.size with
  | none => .error .configurationInvalid
  | some bytes =>
    match FspHeader.validate bytes base with
    | .error e => .error e
    | .ok header =>
      if header.configOffset.toNat + header.configSize.toNat ≤ image.length then
        .ok ⟨header, image⟩
      else .error .configurationInvalid

def defaultUpd (c : FspComponent) : Bytes :=
  (c.image.drop c.header.configOffset.toNat).take c.header.configSize.toNat

def entry? (c : FspComponent) (offset : UInt32) : Option UInt64 :=
  if offset = 0 then none else some (c.header.imageBase.toUInt64 + offset.toUInt64)

def call (gate : CallGate ω) (address : UInt64) (request : FspCall) : Step ω EfiError UInt64 :=
  fun w =>
    let (reply, w) := gate.call address request w
    match reply.status.toExcept with
    | .ok () => .ok reply.hobList w
    | .error e => .error (.error e) w

/-- Makes a call that hands over the block in the state; the block is what the call leaves. -/
def callWithUpd (gate : CallGate ω) (address : UInt64) (request : Bytes → FspCall) :
    Step (Bytes × ω) EfiError UInt64 := fun s =>
  let (reply, w) := gate.call address (request s.1) s.2
  match reply.status.toExcept with
  | .ok () => .ok reply.hobList (reply.upd, w)
  | .error e => .error (.error e) (reply.upd, w)

def memoryInit (c : FspComponent) (gate : CallGate ω) : Step (Bytes × ω) EfiError UInt64 :=
  match c.entry? c.header.memoryInit with
  | none => Step.fail BootError.configurationInvalid.toEfi
  | some address => callWithUpd gate address .memoryInit

def siliconInit (c : FspComponent) (gate : CallGate ω) : Step (Bytes × ω) EfiError Unit :=
  match c.entry? c.header.siliconInit with
  | none => Step.fail BootError.configurationInvalid.toEfi
  | some address => do
    let _ ← callWithUpd gate address .siliconInit

def tempRamExit (c : FspComponent) (gate : CallGate ω) : Step ω EfiError Unit :=
  match c.entry? c.header.tempRamExit with
  | none => Step.fail .unsupported
  | some address => do
    let _ ← call gate address .tempRamExit

def notifyPhase (c : FspComponent) (gate : CallGate ω) (phase : NotifyPhase) :
    Step ω EfiError Unit :=
  match c.entry? c.header.notifyPhase with
  | none => Step.fail .unsupported
  | some address => do
    let _ ← call gate address (.notifyPhase phase)

end FspComponent
end PlatformInit
