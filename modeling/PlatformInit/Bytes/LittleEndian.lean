/-!
Numbers as little-endian bytes.

`leBytes w n` writes the low `w` bytes of `n`, least significant first, and `leValue` reads any
number of bytes back; `leValue_leBytes` and `leBytes_leValue` are the two round trips.
-/
set_option autoImplicit false
namespace PlatformInit

def leBytes : Nat → Nat → List UInt8
  | 0, _ => []
  | w + 1, n => .ofNat n :: leBytes w (n / 256)

def leValue : List UInt8 → Nat
  | [] => 0
  | b :: bs => b.toNat + 256 * leValue bs

@[simp] theorem length_leBytes (w n : Nat) : (leBytes w n).length = w := by
  induction w generalizing n with
  | zero => rfl
  | succ w ih => simp [leBytes, ih]

theorem shiftLeft_byte (n : Nat) : 1 <<< (8 * (n + 1)) = 256 * 1 <<< (8 * n) := by
  rw [Nat.mul_succ, Nat.shiftLeft_add, Nat.shiftLeft_eq _ 8, Nat.mul_comm]

theorem leValue_lt (bs : List UInt8) : leValue bs < 1 <<< (8 * bs.length) := by
  induction bs with
  | nil => exact Nat.one_pos
  | cons b bs ih =>
    have hb := b.toNat_lt
    rw [leValue, List.length_cons, shiftLeft_byte]
    omega

theorem leValue_leBytes (w n : Nat) : leValue (leBytes w n) = n % 1 <<< (8 * w) := by
  induction w generalizing n with
  | zero => exact (Nat.mod_one n).symm
  | succ w ih =>
    rw [leBytes, leValue, ih, shiftLeft_byte, Nat.mod_mul, UInt8.toNat_ofNat']

theorem leBytes_leValue (bs : List UInt8) : leBytes bs.length (leValue bs) = bs := by
  induction bs with
  | nil => rfl
  | cons b bs ih =>
    have hb := b.toNat_lt
    rw [List.length_cons, leBytes, leValue, show (b.toNat + 256 * leValue bs) / 256 = leValue bs by omega, ih]
    congr 1
    apply UInt8.toNat_inj.mp
    rw [UInt8.toNat_ofNat']
    omega

def le16 (n : UInt16) : List UInt8 := leBytes 2 n.toNat
def le32 (n : UInt32) : List UInt8 := leBytes 4 n.toNat
def le64 (n : UInt64) : List UInt8 := leBytes 8 n.toNat

@[simp] theorem length_le16 (n : UInt16) : (le16 n).length = 2 := length_leBytes ..
@[simp] theorem length_le32 (n : UInt32) : (le32 n).length = 4 := length_leBytes ..
@[simp] theorem length_le64 (n : UInt64) : (le64 n).length = 8 := length_leBytes ..

end PlatformInit
