import PlatformInit.Memory

/-!
The interrupt descriptor table of a boot stage.

In memory the gates follow a word that holds the address of the active global context, so that the
context is found from the table register alone.
-/
set_option autoImplicit false
namespace PlatformInit

structure GateLow where
  offsetLow : BitVec 16
  selector : BitVec 16
  stackTable : BitVec 3
  reservedLow : BitVec 5
  type : BitVec 4
  reservedHigh : BitVec 1
  privilege : BitVec 2
  present : Bool
  offsetMid : BitVec 16
  deriving DecidableEq

namespace GateLow

def zero : GateLow := ⟨0, 0, 0, 0, 0, 0, 0, false, 0⟩

def toBits (g : GateLow) : BitVec 64 :=
  g.offsetMid ++ BitVec.ofBool g.present ++ g.privilege ++ g.reservedHigh ++ g.type
    ++ g.reservedLow ++ g.stackTable ++ g.selector ++ g.offsetLow

def ofBits (w : BitVec 64) : GateLow where
  offsetLow := w.extractLsb' 0 16
  selector := w.extractLsb' 16 16
  stackTable := w.extractLsb' 32 3
  reservedLow := w.extractLsb' 35 5
  type := w.extractLsb' 40 4
  reservedHigh := w.extractLsb' 44 1
  privilege := w.extractLsb' 45 2
  present := w.getLsbD 47
  offsetMid := w.extractLsb' 48 16

end GateLow

structure Gate where
  low : GateLow
  offsetHigh : UInt32
  reserved : UInt32
  deriving DecidableEq

namespace Gate

def interruptType : UInt8 := 0xE

def missing : Gate := ⟨.zero, 0, 0⟩

def interrupt (handler : UInt64) (selector : UInt16) : Gate where
  low := { GateLow.zero with
    offsetLow := handler.toBitVec.extractLsb' 0 16
    selector := selector.toBitVec
    type := interruptType.toBitVec.setWidth 4
    present := true
    offsetMid := handler.toBitVec.extractLsb' 16 16 }
  offsetHigh := ⟨handler.toBitVec.extractLsb' 32 32⟩
  reserved := 0

def handler (g : Gate) : UInt64 := ⟨g.offsetHigh.toBitVec ++ g.low.offsetMid ++ g.low.offsetLow⟩

def size : Nat := 16

def toBytes (g : Gate) : Bytes := le64 ⟨g.low.toBits⟩ ++ le32 g.offsetHigh ++ le32 g.reserved

def load (m : Memory) (address : Nat) : Gate :=
  ⟨.ofBits (m.u64 address).toBitVec, m.u32 (address + 8), m.u32 (address + 12)⟩

end Gate

/-- The word in front of the table, and the table. -/
structure Idt where
  context : UInt64
  gates : List Gate
  deriving DecidableEq

namespace Idt

def gateCount : Nat := 34

def blank : Idt := ⟨0, List.replicate gateCount .missing⟩

/-- A table for the context at `context` whose gates lead to the entry points of their vectors. -/
def populated (context : UInt64) (selector : UInt16) (stub : UInt8 → UInt64) : Idt :=
  ⟨context, (List.range gateCount).map fun v => .interrupt (stub (.ofNat v)) selector⟩

def size : Nat := 8 + Gate.size * gateCount

/-- Where the gates begin, from the word in front of them on. -/
def gateOffset : UInt64 := 8

def limit : UInt16 := .ofNat (Gate.size * gateCount - 1)

def toBytes (t : Idt) : Bytes := le64 t.context ++ t.gates.flatMap Gate.toBytes

def load (m : Memory) (address : Nat) : Idt :=
  ⟨m.u64 address, (List.range gateCount).map fun i => Gate.load m (address + 8 + Gate.size * i)⟩

end Idt
end PlatformInit
