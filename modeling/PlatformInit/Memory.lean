import PlatformInit.Bytes.Field

/-!
Physical memory as a byte at every address.
-/
set_option autoImplicit false
namespace PlatformInit

structure Memory where
  byte : Nat → UInt8

namespace Memory

def blank : Memory := ⟨fun _ => 0⟩

def read (m : Memory) (address length : Nat) : Bytes :=
  (List.range' address length).map m.byte

def u16 (m : Memory) (address : Nat) : UInt16 := .ofNat (leValue (m.read address 2))
def u32 (m : Memory) (address : Nat) : UInt32 := .ofNat (leValue (m.read address 4))
def u64 (m : Memory) (address : Nat) : UInt64 := .ofNat (leValue (m.read address 8))

def write (m : Memory) (address : Nat) (bytes : Bytes) : Memory :=
  let block := bytes.toArray
  ⟨fun a => if a < address then m.byte a else block.getD (a - address) (m.byte a)⟩

@[simp] theorem length_read (m : Memory) (address length : Nat) :
    (m.read address length).length = length := by
  simp [read]

theorem byte_write (m : Memory) (address : Nat) (bytes : Bytes) (a : Nat) :
    (m.write address bytes).byte a =
      if a < address then m.byte a else bytes.getD (a - address) (m.byte a) := by
  simp [write, Array.getD_eq_getD_getElem?, List.getD_eq_getElem?_getD]

end Memory
end PlatformInit
