import PlatformInit.Hob.Basic
import PlatformInit.Word.Align

/-!
What a hand-off list says about the amount of memory.
-/
set_option autoImplicit false
namespace PlatformInit.HobList

/-- Top of low memory: the end of the reserved region plus the boot loader's region, if any. -/
def topOfLowMemory (hobs : HobList) : Fallible BootError UInt64 :=
  match hobs.resourceOf? .reservedMemory with
  | none => .fail .resourceNotFound
  | some reserved => do
    let top ← reserved.stop
    match hobs.resourceOf? .bootLoaderMemory with
    | none => return top
    | some bootLoader => add64 top bootLoader.length

def addSystemMemory (sums : UInt64 × UInt64) (r : ResourceDescriptor) : Except Halt (UInt64 × UInt64) :=
  if r.kind ≠ ResourceDescriptor.systemMemory then .ok sums
  else if size4G ≤ r.start then do return (sums.1, ← add64 sums.2 r.length)
  else do return (← add64 sums.1 r.length, sums.2)

def systemMemory (hobs : HobList) : Except Halt (UInt64 × UInt64) :=
  hobs.resources.foldlM addSystemMemory (0, 0)

end PlatformInit.HobList
