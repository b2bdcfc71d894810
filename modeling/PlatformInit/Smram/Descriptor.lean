import PlatformInit.Hob.Codec

/-!
SMRAM ranges and the descriptor block in which they are handed on: a count, padded to eight bytes,
and thirty-two bytes for each range.
-/
set_option autoImplicit false
namespace PlatformInit

/-- The state bits of an SMRAM range; bits without a name are kept as they are. -/
abbrev RegionState := UInt64

namespace RegionState

def opened : RegionState := 0x1
def closed : RegionState := 0x2
def locked : RegionState := 0x4
def cacheable : RegionState := 0x8
def allocated : RegionState := 0x10
def needsTesting : RegionState := 0x20
def needsEccInitialization : RegionState := 0x40

def intersects (s t : RegionState) : Bool := s &&& t != 0

end RegionState

structure SmramRange where
  physicalStart : UInt64
  cpuStart : UInt64
  size : UInt64
  state : RegionState
  deriving DecidableEq

namespace SmramRange

def cpuStop (r : SmramRange) : Except Halt UInt64 := add64 r.cpuStart r.size

def encodedSize : Nat := 32

def toBytes (r : SmramRange) : Bytes :=
  le64 r.physicalStart ++ le64 r.cpuStart ++ le64 r.size ++ le64 r.state

def read? (bytes : Bytes) (offset : Nat) : Option SmramRange := do
  return ⟨← bytes.u64? offset, ← bytes.u64? (offset + 8), ← bytes.u64? (offset + 16),
    ← bytes.u64? (offset + 24)⟩

end SmramRange

namespace DescriptorBlock

def start : Nat := 8

def encode (ranges : List SmramRange) : Bytes :=
  leBytes 4 ranges.length ++ le32 0 ++ ranges.flatMap SmramRange.toBytes

def readRanges : Nat → Bytes → Option (List SmramRange)
  | 0, _ => some []
  | count + 1, bytes =>
    match SmramRange.read? bytes 0 with
    | none => none
    | some range => (readRanges count (bytes.drop SmramRange.encodedSize)).map (range :: ·)

/-- Reads as many ranges as the count says; bytes after them are not looked at. -/
def decode (bytes : Bytes) : Except HobError (List SmramRange) :=
  match bytes.u32? 0 with
  | none => .error .truncated
  | some count =>
    match readRanges count.toNat (bytes.drop start) with
    | none => .error .truncated
    | some ranges => .ok ranges

end DescriptorBlock
end PlatformInit
