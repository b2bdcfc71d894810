import PlatformInit.Context.Arena
import PlatformInit.Log.Record
import PlatformInit.Memory
import PlatformInit.Word.Checked

/-!
The global context of the boot loader, and its form in memory.

The pool grows down from `poolTop` and up from `poolBottom`. A record takes seventy-two bytes;
`GlobalContext.toBytes` writes them and `GlobalContext.ofBytes` reads them back.
-/
set_option autoImplicit false
namespace PlatformInit

structure GlobalContext where
  signature : UInt32
  bootMode : UInt8
  stackTop : UInt32
  poolEnd : UInt32
  poolStart : UInt32
  poolTop : UInt32
  poolBottom : UInt32
  usableTop : UInt32
  printMask : UInt32
  hobList : UInt64
  memoryUpd : Option ConfigHandle
  siliconUpd : Option ConfigHandle
  deriving DecidableEq

namespace GlobalContext

def magic : UInt32 := 0x4752444C

def defaultPrintMask : UInt32 := 0x8000004F

def blank : GlobalContext :=
  ⟨magic, 0, 0, 0, 0, 0, 0, 0, defaultPrintMask, 0, none, none⟩

/-- The record in temporary memory, whose pool begins at the top of the stack. -/
def temporary (stackTop poolSize : UInt32) : Except Halt GlobalContext := do
  let poolEnd ← add32 stackTop poolSize
  return { blank with stackTop, poolStart := stackTop, poolEnd, poolTop := poolEnd,
                      poolBottom := stackTop }

def isValid (c : GlobalContext) : Bool := c.signature = magic

def logFilter (c : GlobalContext) : Log.Filter := .ofPrintMask c.printMask

def size : Nat := 72

def handleBytes : Option ConfigHandle → Bytes
  | none => le32 0 ++ le32 0 ++ le32 0
  | some h => le32 1 ++ le32 h.generation ++ le32 h.index

def toBytes (c : GlobalContext) : Bytes :=
  le32 c.signature ++ le32 c.bootMode.toUInt32 ++ le32 c.stackTop ++ le32 c.poolEnd
    ++ le32 c.poolStart ++ le32 c.poolTop ++ le32 c.poolBottom ++ le32 c.usableTop
    ++ le32 c.printMask ++ le32 0 ++ le64 c.hobList ++ handleBytes c.memoryUpd
    ++ handleBytes c.siliconUpd

/-- The number in the `width` bytes from `offset` on; bytes beyond the end do not count. -/
def field (bytes : Bytes) (offset width : Nat) : Nat := leValue ((bytes.drop offset).take width)

def handleAt (bytes : Bytes) (offset : Nat) : Option ConfigHandle :=
  if field bytes offset 4 = 0 then none
  else some ⟨.ofNat (field bytes (offset + 4) 4), .ofNat (field bytes (offset + 8) 4)⟩

def ofBytes (bytes : Bytes) : GlobalContext where
  signature := .ofNat (field bytes 0 4)
  bootMode := .ofNat (field bytes 4 1)
  stackTop := .ofNat (field bytes 8 4)
  poolEnd := .ofNat (field bytes 12 4)
  poolStart := .ofNat (field bytes 16 4)
  poolTop := .ofNat (field bytes 20 4)
  poolBottom := .ofNat (field bytes 24 4)
  usableTop := .ofNat (field bytes 28 4)
  printMask := .ofNat (field bytes 32 4)
  hobList := .ofNat (field bytes 40 8)
  memoryUpd := handleAt bytes 48
  siliconUpd := handleAt bytes 60

def load (m : Memory) (address : UInt64) : GlobalContext := ofBytes (m.read address.toNat size)

def store (m : Memory) (address : UInt64) (c : GlobalContext) : Memory :=
  m.write address.toNat c.toBytes

end GlobalContext
end PlatformInit
