import PlatformInit.Bytes.Field
import PlatformInit.Proofs.Word.Multiples

/-!
Sums on places in a byte string, each checked where the machine works it out.
-/
set_option autoImplicit false
namespace PlatformInit

/-- No byte string in memory takes half of the addresses. -/
def Bytes.Addressable (bytes : Bytes) : Prop := bytes.length < 0x8000000000000000

instance (bytes : Bytes) : Decidable bytes.Addressable := inferInstanceAs (Decidable (_ < _))

theorem fit64_of_lt {n : Nat} (h : n < UInt64.size) : fit64 n = .ok n := if_pos h

def roundUpChecked (unit n : Nat) : Except Halt Nat :=
  (fit64 (n + (unit - 1))).map (· / unit * unit)

theorem eq_of_roundUpChecked {unit n m : Nat} (h : roundUpChecked unit n = .ok m) : m = roundUp unit n := by
  rw [roundUpChecked, fit64] at h
  split at h
  · cases h
    rfl
  · cases h

theorem roundUpChecked_eq {unit n : Nat} (h : n + (unit - 1) < UInt64.size) :
    roundUpChecked unit n = .ok (roundUp unit n) := by
  rw [roundUpChecked, fit64_of_lt h]
  rfl

theorem roundUp_le_add (unit n : Nat) : roundUp unit n ≤ n + (unit - 1) := Nat.div_mul_le_self _ _

end PlatformInit
