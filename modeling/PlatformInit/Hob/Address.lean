import PlatformInit.Hob.Codec
import PlatformInit.Memory

/-!
Hand-off lists that lie somewhere in memory, their length not known beforehand.
-/
set_option autoImplicit false
namespace PlatformInit.HobList

/-- The bytes from `address` to the end of the list there, found by following the lengths of the
records; `walked` of them have been passed already. -/
def span (m : Memory) (address walked : Nat) : Fallible HobError Nat :=
  if _inside : address + walked < UInt64.size then
    if m.u16 (address + walked) = Hob.endKind then Fallible.ofHalting (fit64 (walked + Hob.headerSize))
    else if _short : (m.u16 (address + walked + 2)).toNat < Hob.headerSize then
      .fail (.invalidLength (m.u16 (address + walked + 2)))
    else span m address (walked + (m.u16 (address + walked + 2)).toNat)
  else .error (.halt .overflow)
termination_by UInt64.size - (address + walked)
decreasing_by
  simp only [Hob.headerSize] at _short
  omega

def parseAt (m : Memory) (address : Nat) : Fallible HobError HobList := do
  let length ← span m address 0
  Fallible.ofExcept (parse (m.read address length))

end PlatformInit.HobList
