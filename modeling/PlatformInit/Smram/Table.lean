import PlatformInit.Smram.Access
import PlatformInit.Smram.Descriptor
import PlatformInit.Word.Align

/-!
The table of SMRAM ranges: which range the MM core goes into, and the space carved for it from the
tail of that range.
-/
set_option autoImplicit false
namespace PlatformInit

structure SmramTable where
  ranges : List SmramRange
  deriving DecidableEq

structure Carveout where
  index : Nat
  size : UInt64
  destination : UInt64
  deriving DecidableEq

namespace SmramTable

/-- The smallest range that may hold the MM core. -/
def minRangeSize : UInt64 := size256K - pageSize

def unusable : RegionState :=
  RegionState.allocated ||| RegionState.needsTesting ||| RegionState.needsEccInitialization

def ofHobs (hobs : HobList) : Except BootError SmramTable :=
  match hobs.dataOf? Guid.smramMemory with
  | none => .error .resourceNotFound
  | some data =>
    match DescriptorBlock.decode data with
    | .error _ => .error .configurationInvalid
    | .ok [] => .error .resourceNotFound
    | .ok ranges => .ok ⟨ranges⟩

/-- Whether a range may hold the MM core: it lies from 1 MiB up to 4 GiB and is large enough. -/
def eligible (r : SmramRange) : Except Halt Bool := do
  if RegionState.intersects r.state unusable ∨ r.cpuStart < size1M then return false
  else return (← r.cpuStop) ≤ size4G ∧ minRangeSize ≤ r.size

/-- Keeps the larger of the best range so far and the range at `index`. -/
def better (best : Option (Nat × UInt64)) (entry : SmramRange × Nat) :
    Except Halt (Option (Nat × UInt64)) := do
  if ← eligible entry.1 then
    match best with
    | none => return some (entry.2, entry.1.size)
    | some (_, size) => return if size < entry.1.size then some (entry.2, entry.1.size) else best
  else return best

/-- The largest range that may hold the MM core; of equal ones, the first. -/
def selectRange (t : SmramTable) : Except Halt (Option Nat) := do
  return (← t.ranges.zipIdx.foldlM better none).map (·.1)

def endsAt (base : UInt64) (r : SmramRange) : Except Halt Bool :=
  if r.cpuStart < base then r.cpuStop.map (· == base) else .ok false

/-- Grows a region by a range that touches it at either end. -/
def growBy (region : UInt64 × UInt64) (r : SmramRange) : Except Halt (UInt64 × UInt64) := do
  let (base, size) := region
  if ← endsAt base r then return (r.cpuStart, ← add64 size r.size)
  else
    if (← add64 base size) = r.cpuStart ∧ 0 < r.size then return (base, ← add64 size r.size)
    else return region

/-- Grows a region by the ranges that touch it until none does. -/
def grow (ranges : List SmramRange) (region : UInt64 × UInt64) : Except Halt (UInt64 × UInt64) :=
  match ranges.foldlM growBy region with
  | .error h => .error h
  | .ok grown => if region.2 < grown.2 then grow ranges grown else .ok grown
termination_by UInt64.size - region.2.toNat
decreasing_by
  have := UInt64.lt_iff_toNat_lt.mp ‹_›
  have := grown.2.toNat_lt_size
  omega

/-- Base and size of the region to cache while the MM core is loaded into the range at `index`. -/
def cacheRange (t : SmramTable) (index : Nat) : Except Halt (Option (UInt64 × UInt64)) :=
  match t.ranges[index]? with
  | none => .ok none
  | some r => (grow t.ranges (r.cpuStart, r.size)).map some

/-- Claims whole pages at the tail of the range at `index` for an image, with room to align it. The
range must be larger than the claim. -/
def carve (index : Nat) (imageSize alignment : UInt64) : Step SmramTable BootError Carveout := do
  let t ← get
  match t.ranges[index]? with
  | none => Step.fail .resourceNotFound
  | some r =>
    if imageSize.toNat + alignment.toNat < UInt64.size then
      let size := pagesToSize (sizeToPages (imageSize + alignment))
      if r.size &&& pageMask ≠ 0 ∨ r.size ≤ size then Step.fail .resourceExhausted
      else
        let rest := r.size - size
        set (SmramTable.mk (t.ranges.set index { r with size := rest }))
        return ⟨index, size, ← Step.ofHalting (add64 r.cpuStart rest)⟩
    else Step.fail .resourceExhausted

def commit (c : Carveout) : Step SmramTable BootError Unit := do
  let t ← get
  match t.ranges[c.index]? with
  | none => Step.fail .resourceNotFound
  | some r =>
    let physicalStart ← Step.ofHalting (add64 r.physicalStart r.size)
    set (SmramTable.mk (t.ranges ++
      [⟨physicalStart, c.destination, c.size, r.state ||| RegionState.allocated⟩]))

def records (c : Carveout) (r : SmramRange) : Bool :=
  r.cpuStart = c.destination ∧ r.size = c.size ∧ r.state &&& RegionState.allocated ≠ 0

def restore (c : Carveout) : Step SmramTable BootError Unit := do
  let kept := (← get).ranges.filter fun r => !records c r
  set (SmramTable.mk kept)
  match kept[c.index]? with
  | none => return ()
  | some r =>
    let size ← Step.ofHalting (add64 r.size c.size)
    set (SmramTable.mk (kept.set c.index { r with size }))

def setState (t : SmramTable) (on off : RegionState) : SmramTable :=
  ⟨t.ranges.map fun r => { r with state := r.state &&& ~~~off ||| on }⟩

section
variable {ω : Type}

/-- Makes a transition of the window and records it in every range if it succeeds. -/
def transition (x : Step ω EfiError Unit) (on off : RegionState) :
    Step (SmramTable × ω) EfiError Unit := do
  Step.focus Prod.snd (fun w s => (s.1, w)) x
  modify fun s => (s.1.setState on off, s.2)

def openAll (a : SmramAccess ω) : Step (SmramTable × ω) EfiError Unit :=
  transition a.openWindow RegionState.opened RegionState.closed

def closeAll (a : SmramAccess ω) : Step (SmramTable × ω) EfiError Unit :=
  transition a.closeWindow RegionState.closed RegionState.opened

end

end SmramTable
end PlatformInit
