import PlatformInit.Status
import PlatformInit.Word.Align

/-!
The cache policy for the memory map.

One write-back range that is rounded up covers all of low memory, and what it covers too much is
made uncacheable again. Below 1 MiB, conventional memory is write-back, the video window uncacheable
and the option ROM area write-protected.
-/
set_option autoImplicit false
namespace PlatformInit

inductive CacheType where
  | uncacheable
  | writeCombining
  | writeThrough
  | writeProtected
  | writeBack
  deriving DecidableEq

namespace CacheType

def code : CacheType → UInt8
  | uncacheable => 0
  | writeCombining => 1
  | writeThrough => 4
  | writeProtected => 5
  | writeBack => 6

end CacheType

structure CacheRange where
  base : UInt64
  length : UInt64
  type : CacheType
  deriving DecidableEq

structure CacheController (ω : Type) where
  reset : Step ω EfiError Unit
  setAttributes : UInt64 → UInt64 → CacheType → Step ω EfiError Unit

namespace CachePolicy

/-- The length of the write-back range from zero that covers low memory: the next power of two, or
below 4 GiB of room the next multiple of 256 MiB, so that the hole under 4 GiB stays uncovered. -/
def coveringRange (low : UInt64) : Except Halt UInt64 :=
  let covering := (nextPowerOfTwo low).getD 0xFFFFFFFFFFFFFFFF
  if size4G ≤ covering then do
    let raised ← add64 low (size256M - 1)
    return raised - raised % size256M
  else .ok covering

/-- The range that gives back what the covering range covers beyond low memory. -/
def excess (low covering : UInt64) : Except Halt (List CacheRange) :=
  if covering = low then .ok []
  else (sub64 covering low).map fun length => [⟨low, length, .uncacheable⟩]

def ranges (low high : UInt64) : Except Halt (List CacheRange) := do
  let covering ← coveringRange low
  let excess ← excess low covering
  return [⟨0, size640K, .writeBack⟩, ⟨size640K, size128K, .uncacheable⟩,
      ⟨0xC0000, size256K, .writeProtected⟩, ⟨0, covering, .writeBack⟩]
    ++ excess
    ++ if high = 0 then [] else [⟨size4G, high, .writeBack⟩]

def program {ω : Type} (cache : CacheController ω) (low high : UInt64) : Step ω EfiError Unit := do
  cache.reset
  let ranges ← Step.ofHalting (ranges low high)
  ranges.forM fun r => cache.setAttributes r.base r.length r.type

end CachePolicy
end PlatformInit
