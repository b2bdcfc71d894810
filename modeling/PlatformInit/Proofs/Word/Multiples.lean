import Mathlib.Order.Bounds.Basic
import PlatformInit.Volume.File

/-!
The first multiple of a unit from a number on, and rounding up to it.
-/
set_option autoImplicit false
namespace PlatformInit

/-- `m` is the least multiple of `unit` that is not below `n`. -/
def NextMultiple (unit n m : Nat) : Prop := IsLeast {k | unit ∣ k ∧ n ≤ k} m

variable {unit n m : Nat}

theorem dvd_roundUp (unit n : Nat) : unit ∣ roundUp unit n := Nat.dvd_mul_left unit _

theorem roundUp_le (h : 0 < unit) (hdvd : unit ∣ m) (hle : n ≤ m) : roundUp unit n ≤ m := by
  obtain ⟨k, rfl⟩ := hdvd
  have hlt : n + (unit - 1) < unit * (k + 1) := by
    rw [Nat.mul_succ]
    omega
  rw [roundUp, Nat.mul_comm unit]
  exact Nat.mul_le_mul_right unit (Nat.le_of_lt_succ (Nat.div_lt_of_lt_mul hlt))

theorem nextMultiple_roundUp (h : 0 < unit) (n : Nat) : NextMultiple unit n (roundUp unit n) :=
  ⟨⟨dvd_roundUp unit n, le_roundUp h⟩, fun _ hk => roundUp_le h hk.1 hk.2⟩

theorem NextMultiple.eq_roundUp (hnext : NextMultiple unit n m) (h : 0 < unit) : m = roundUp unit n :=
  IsLeast.unique hnext (nextMultiple_roundUp h n)

end PlatformInit
