import PlatformInit.Bytes.LittleEndian

/-!
Fields of a byte string: slices and little-endian words at an offset.

A read answers `none` when the field does not lie inside the bytes, and a write then leaves them
unwritten.
-/
set_option autoImplicit false
namespace PlatformInit

abbrev Bytes := List UInt8

namespace Bytes

/-- Whether there are at least `n` bytes; looks at no more than these. -/
def reaches : Bytes → Nat → Bool
  | _, 0 => true
  | [], _ + 1 => false
  | _ :: bytes, n + 1 => reaches bytes n

@[simp] theorem reaches_iff {bytes : Bytes} {n : Nat} : bytes.reaches n = true ↔ n ≤ bytes.length := by
  fun_induction reaches bytes n with
  | case1 => simp
  | case2 => simp
  | case3 b bytes n ih => simp [ih]

/-- The `length` bytes from `offset` on. -/
def slice? (bytes : Bytes) (offset length : Nat) : Option Bytes :=
  if bytes.reaches (offset + length) then some ((bytes.drop offset).take length) else none

def u8? (bytes : Bytes) (offset : Nat) : Option UInt8 := bytes[offset]?

/-- The little-endian number in the `width` bytes from `offset` on. -/
def word? (bytes : Bytes) (width offset : Nat) : Option Nat :=
  (bytes.slice? offset width).map leValue

def u16? (bytes : Bytes) (offset : Nat) : Option UInt16 := (bytes.word? 2 offset).map .ofNat
def u32? (bytes : Bytes) (offset : Nat) : Option UInt32 := (bytes.word? 4 offset).map .ofNat
def u64? (bytes : Bytes) (offset : Nat) : Option UInt64 := (bytes.word? 8 offset).map .ofNat

/-- The bytes with `part` in place of as many bytes from `offset` on. -/
def overwrite (bytes : Bytes) (offset : Nat) (part : Bytes) : Bytes :=
  bytes.take offset ++ part ++ bytes.drop (offset + part.length)

def overwrite? (bytes : Bytes) (offset : Nat) (part : Bytes) : Option Bytes :=
  if bytes.reaches (offset + part.length) then some (bytes.overwrite offset part) else none

/-- The bytes followed by as many zeros as make their number a multiple of `unit`. -/
def padTo (unit : Nat) (bytes : Bytes) : Bytes :=
  bytes ++ List.replicate ((unit - bytes.length % unit) % unit) 0

theorem length_of_slice? {bytes part : Bytes} {offset length : Nat}
    (h : bytes.slice? offset length = some part) : part.length = length := by
  unfold slice? at h
  split at h
  · rename_i reaches
    rw [reaches_iff] at reaches
    cases h
    simp only [List.length_take, List.length_drop]
    omega
  · cases h

theorem le_length_of_slice? {bytes part : Bytes} {offset length : Nat}
    (h : bytes.slice? offset length = some part) : offset + length ≤ bytes.length := by
  unfold slice? at h
  split at h
  · rename_i reaches
    exact reaches_iff.mp reaches
  · cases h

theorem length_overwrite {bytes part : Bytes} {offset : Nat}
    (h : offset + part.length ≤ bytes.length) : (bytes.overwrite offset part).length = bytes.length := by
  simp only [overwrite, List.length_append, List.length_take, List.length_drop]
  omega

end Bytes
end PlatformInit
