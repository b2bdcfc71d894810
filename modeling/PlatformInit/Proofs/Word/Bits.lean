import Mathlib.Algebra.Order.Group.Nat
import PlatformInit.Word.Align

/-!
The bits of machine words, and words that agree from some bit on.
-/
set_option autoImplicit false
namespace PlatformInit

theorem testBit_not {i : Nat} (v : UInt64) (hi : i < 64) :
    (~~~v).toNat.testBit i = !v.toNat.testBit i := by
  have flip : UInt64.size - 1 - v.toNat = 2 ^ 64 - (v.toNat + 1) := by
    simp only [UInt64.size]
    omega
  rw [UInt64.toNat_not, flip, Nat.testBit_two_pow_sub_succ v.toNat_lt, decide_eq_true hi,
    Bool.true_and]

theorem testBit_of_le {i : Nat} (v : UInt64) (hi : 64 ≤ i) : v.toNat.testBit i = false :=
  Nat.testBit_lt_two_pow (Nat.lt_of_lt_of_le v.toNat_lt (Nat.pow_le_pow_right (by omega) hi))

theorem toNat_two_pow_sub_one {k : Nat} (hk : k < 64) :
    (UInt64.ofNat (2 ^ k) - 1).toNat = 2 ^ k - 1 := by
  have hlt : 2 ^ k < 2 ^ 64 := Nat.pow_lt_pow_right (by omega) hk
  have hpos := Nat.two_pow_pos k
  have hword : (UInt64.ofNat (2 ^ k)).toNat = 2 ^ k := UInt64.toNat_ofNat_of_lt' hlt
  rw [UInt64.toNat_sub_of_le, hword]
  · rfl
  · rw [UInt64.le_iff_toNat_le, hword]
    exact hpos

theorem testBit_two_pow_sub_one {k i : Nat} (hk : k < 64) :
    (UInt64.ofNat (2 ^ k) - 1).toNat.testBit i = decide (i < k) := by
  rw [toNat_two_pow_sub_one hk, Nat.testBit_two_pow_sub_one]

theorem div_eq_iff_testBit {a b k n : Nat} (ha : a < 2 ^ n) (hb : b < 2 ^ n) :
    a / 2 ^ k = b / 2 ^ k ↔ ∀ i, k ≤ i → i < n → a.testBit i = b.testBit i := by
  constructor
  · intro h i hki _
    have hbit := congrArg (Nat.testBit · (i - k)) h
    simp only [Nat.testBit_div_two_pow] at hbit
    rwa [show i - k + k = i by omega] at hbit
  · intro h
    apply Nat.eq_of_testBit_eq
    intro i
    rw [Nat.testBit_div_two_pow, Nat.testBit_div_two_pow]
    by_cases hi : i + k < n
    · exact h (i + k) (by omega) hi
    · have hle : 2 ^ n ≤ 2 ^ (i + k) := Nat.pow_le_pow_right (by omega) (by omega)
      rw [Nat.testBit_lt_two_pow (Nat.lt_of_lt_of_le ha hle),
        Nat.testBit_lt_two_pow (Nat.lt_of_lt_of_le hb hle)]

theorem div_eq_div_iff_block {a b k : Nat} (hb : 2 ^ k ∣ b) :
    a / 2 ^ k = b / 2 ^ k ↔ b ≤ a ∧ a < b + 2 ^ k := by
  obtain ⟨q, rfl⟩ := hb
  rw [Nat.mul_div_cancel_left q (Nat.two_pow_pos k), Nat.div_eq_iff (Nat.two_pow_pos k)]
  have hpos := Nat.two_pow_pos k
  rw [Nat.mul_comm q]
  omega

end PlatformInit
