import PlatformInit.Cache.Policy

/-!
Memory type range registers (MTRRs).

A range that ends at or below 1 MiB goes into the eighty-eight type bytes of the fixed-range
registers. Any other range is split into naturally aligned powers of two, each in a free pair of
variable-range registers.
-/
set_option autoImplicit false
namespace PlatformInit

structure MsrAccess (ω : Type) where
  read : UInt32 → ω → UInt64
  write : UInt32 → UInt64 → ω → ω

abbrev Msrs := UInt32 → UInt64

def Msrs.access : MsrAccess Msrs where
  read msr m := m msr
  write msr value m := fun i => if i = msr then value else m i

namespace Mtrr

def capability : UInt32 := 0xFE
def defaultType : UInt32 := 0x2FF

def baseRegister (slot : UInt32) : UInt32 := 0x200 + 2 * slot

def maskRegister (slot : UInt32) : UInt32 := 0x200 + 2 * slot + 1

def enable : UInt64 := 0x800

def fixedEnable : UInt64 := 0x400

def valid : UInt64 := 0x800

/-- A fixed-range register: eight type bytes for eight ranges of `unit` bytes from `start` on. -/
structure FixedRegister where
  msr : UInt32
  start : Nat
  unit : Nat

def fixedRegisters : List FixedRegister :=
  [⟨0x250, 0x00000, 0x10000⟩, ⟨0x258, 0x80000, 0x4000⟩, ⟨0x259, 0xA0000, 0x4000⟩,
    ⟨0x268, 0xC0000, 0x1000⟩, ⟨0x269, 0xC8000, 0x1000⟩, ⟨0x26A, 0xD0000, 0x1000⟩,
    ⟨0x26B, 0xD8000, 0x1000⟩, ⟨0x26C, 0xE0000, 0x1000⟩, ⟨0x26D, 0xE8000, 0x1000⟩,
    ⟨0x26E, 0xF0000, 0x1000⟩, ⟨0x26F, 0xF8000, 0x1000⟩]

namespace FixedRegister

/-- The type bytes whose whole range lies in `[base, stop)`. -/
def lanes (r : FixedRegister) (base stop : Nat) : List Nat :=
  (List.range 8).filter fun i => base ≤ r.start + i * r.unit ∧ r.start + i * r.unit + r.unit ≤ stop

def setLane (type : CacheType) (value : UInt64) (lane : Nat) : UInt64 :=
  let shift := UInt64.ofNat (8 * lane)
  value &&& ~~~(0xFF <<< shift) ||| type.code.toUInt64 <<< shift

end FixedRegister

/-- The largest power of two that divides `n`; zero for zero. -/
def lowBit (n : Nat) : Nat :=
  if n = 0 then 0 else if n % 2 = 1 then 1 else 2 * lowBit (n / 2)

/-- The largest power of two that divides `base` and is not above `remaining`. -/
def pieceSize (base remaining : Nat) : Nat :=
  if base = 0 then 1 <<< remaining.log2 else min (lowBit base) (1 <<< remaining.log2)

theorem lowBit_pos {n : Nat} (h : n ≠ 0) : 0 < lowBit n := by
  induction n using Nat.strongRecOn with
  | ind n ih =>
    rw [lowBit, if_neg h]
    split
    · exact Nat.one_pos
    · have := ih (n / 2) (by omega) (by omega)
      omega

theorem pieceSize_pos (base remaining : Nat) : 0 < pieceSize base remaining := by
  have hpos : 0 < 1 <<< remaining.log2 := by
    rw [Nat.one_shiftLeft]
    exact Nat.two_pow_pos _
  unfold pieceSize
  split
  · exact hpos
  · have := lowBit_pos ‹_›
    omega

theorem pieceSize_le {base remaining : Nat} (h : remaining ≠ 0) :
    pieceSize base remaining ≤ remaining := by
  have hle := Nat.log2_self_le h
  rw [← Nat.one_shiftLeft] at hle
  unfold pieceSize
  split <;> omega

/-- Splits `[base, base + length)` into naturally aligned powers of two, in ascending order. -/
def pieces (base length : Nat) : List (Nat × Nat) :=
  if length = 0 then []
  else (base, pieceSize base length) :: pieces (base + pieceSize base length) (length - pieceSize base length)
termination_by length
decreasing_by
  have := pieceSize_pos base length
  omega

/-- A controller that writes masks of `addressMask` only. -/
structure Controller (ω : Type) where
  msrs : MsrAccess ω
  addressMask : UInt64

namespace Controller
variable {ω : Type}

def new (msrs : MsrAccess ω) (bits : UInt8) : Except Halt (Controller ω) :=
  if bits < 64 then .ok ⟨msrs, ((1 <<< bits.toUInt64) - 1) &&& ~~~0xFFF⟩ else .error .overflow

def write (c : Controller ω) (msr : UInt32) (value : UInt64) : Step ω EfiError Unit :=
  fun w => .ok () (c.msrs.write msr value w)

def slotCount (c : Controller ω) (w : ω) : Nat := (c.msrs.read capability w &&& 0xFF).toNat

def reset (c : Controller ω) : Step ω EfiError Unit := do
  c.write defaultType 0
  let count := c.slotCount (← get)
  (List.range count).forM fun i => do
    c.write (baseRegister (.ofNat i)) 0
    c.write (maskRegister (.ofNat i)) 0
  fixedRegisters.forM fun r => c.write r.msr 0
  c.write defaultType (enable ||| fixedEnable ||| CacheType.uncacheable.code.toUInt64)

/-- Writes the type bytes that lie in `[base, stop)` and answers the bytes they stand for. -/
def setFixedRegister (c : Controller ω) (base stop : Nat) (type : CacheType) (r : FixedRegister) :
    Step ω EfiError Nat := do
  let lanes := r.lanes base stop
  if lanes = [] then return 0
  else
    let value := c.msrs.read r.msr (← get)
    c.write r.msr (lanes.foldl (FixedRegister.setLane type) value)
    return lanes.length * r.unit

/-- Writes every type byte inside the range, then refuses a range that they do not make up. -/
def setFixed (c : Controller ω) (base stop : Nat) (type : CacheType) : Step ω EfiError Unit := do
  let covered ← fixedRegisters.foldlM
    (fun covered r => do return covered + (← c.setFixedRegister base stop type r)) 0
  if base + covered = stop then return () else Step.fail .invalidParameter

def isFree (c : Controller ω) (w : ω) (slot : Nat) : Bool :=
  c.msrs.read (maskRegister (.ofNat slot)) w &&& valid == 0

def freeSlot? (c : Controller ω) (w : ω) (next count : Nat) : Option Nat :=
  (List.range' next (count - next)).find? (c.isFree w)

def maskFor (c : Controller ω) (size : Nat) : UInt64 :=
  ~~~(UInt64.ofNat size - 1) &&& c.addressMask ||| valid

/-- Puts each piece into a free pair of its own, in ascending order of pairs. -/
def setPieces (c : Controller ω) (type : CacheType) (count : Nat) :
    List (Nat × Nat) → Nat → Step ω EfiError Unit
  | [], _ => return ()
  | (base, size) :: rest, next => do
    match c.freeSlot? (← get) next count with
    | none => Step.fail .outOfResources
    | some slot =>
      c.write (baseRegister (.ofNat slot)) (UInt64.ofNat base ||| type.code.toUInt64)
      c.write (maskRegister (.ofNat slot)) (c.maskFor size)
      setPieces c type count rest (slot + 1)

def setAttributes (c : Controller ω) (base length : UInt64) (type : CacheType) :
    Step ω EfiError Unit := do
  if length = 0 ∨ base % pageSize ≠ 0 ∨ length % pageSize ≠ 0 then Step.fail .invalidParameter
  else
    let stop ← Step.ofHalting (add64 base length)
    if stop ≤ size1M then c.setFixed base.toNat stop.toNat type
    else c.setPieces type (c.slotCount (← get)) (pieces base.toNat length.toNat) 0

def cacheController (c : Controller ω) : CacheController ω := ⟨c.reset, c.setAttributes⟩

end Controller
end Mtrr
end PlatformInit
