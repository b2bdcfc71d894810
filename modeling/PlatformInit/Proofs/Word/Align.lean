import Mathlib.Order.Bounds.Basic
import PlatformInit.Word.Align

/-!
Page counts and alignment on the numbers that words stand for.
-/
set_option autoImplicit false
namespace PlatformInit

theorem isPowerOfTwo_pos {n : UInt64} (h : isPowerOfTwo n = true) : 0 < n.toNat := by
  have heq : n.toNat = 1 <<< n.toNat.log2 := of_decide_eq_true h
  rw [heq, Nat.one_shiftLeft]
  exact Nat.two_pow_pos _

/-- `m` is the greatest multiple of `unit` that is not above `n`. -/
def PreviousMultiple (unit n m : Nat) : Prop := IsGreatest {k | unit ∣ k ∧ k ≤ n} m

theorem previousMultiple_sub_mod (unit n : Nat) : PreviousMultiple unit n (n - n % unit) := by
  refine ⟨⟨Nat.dvd_sub_mod n, Nat.sub_le _ _⟩, ?_⟩
  rintro k ⟨hdvd, hle⟩
  have hrest : (n - k) % unit = n % unit := by
    conv => rhs; rw [← Nat.sub_add_cancel hle]
    rw [Nat.add_mod, Nat.mod_eq_zero_of_dvd hdvd, Nat.add_zero, Nat.mod_mod]
  have hmod := Nat.mod_le (n - k) unit
  omega

theorem PreviousMultiple.lt_add {unit n m : Nat} (h : PreviousMultiple unit n m) (hpos : 0 < unit) :
    n < m + unit := by
  refine Nat.lt_of_not_le fun hle => ?_
  have hbound : m + unit ≤ m := h.2 ⟨Nat.dvd_add_self_right.mpr h.1.1, hle⟩
  omega

theorem alignDown_eq_ok_iff {address align aligned : UInt64} : alignDown address align = .ok aligned ↔
    isPowerOfTwo align = true ∧ PreviousMultiple align.toNat address.toNat aligned.toNat := by
  have hvalue : (address - address % align).toNat = address.toNat - address.toNat % align.toNat := by
    rw [UInt64.toNat_sub_of_le, UInt64.toNat_mod]
    rw [UInt64.le_iff_toNat_le, UInt64.toNat_mod]
    exact Nat.mod_le _ _
  unfold alignDown
  by_cases hpower : isPowerOfTwo align = true
  · rw [if_pos hpower, and_iff_right hpower, Except.ok.injEq]
    have hgreatest := previousMultiple_sub_mod align.toNat address.toNat
    rw [← hvalue] at hgreatest
    constructor
    · rintro rfl
      exact hgreatest
    · exact fun h => UInt64.toNat_inj.mp (IsGreatest.unique hgreatest h)
  · rw [if_neg hpower]
    exact ⟨nofun, fun h => absurd h.1 hpower⟩

theorem alignUp_eq_ok {address align aligned : UInt64} (h : alignUp address align = .ok aligned) :
    aligned.toNat % align.toNat = 0 ∧ address.toNat ≤ aligned.toNat ∧
      aligned.toNat < address.toNat + align.toNat := by
  unfold alignUp at h
  split at h
  · rename_i hpower
    have hpos := isPowerOfTwo_pos hpower
    split at h
    · rename_i hmod
      cases h
      have hmod' : address.toNat % align.toNat = 0 := by
        rw [← UInt64.toNat_mod, hmod]
        rfl
      exact ⟨hmod', Nat.le_refl _, by omega⟩
    · rename_i hmod
      split at h
      · rename_i hfits
        cases h
        have hlt := Nat.mod_lt address.toNat hpos
        have hle : address.toNat % align.toNat ≤ address.toNat := Nat.mod_le _ _
        have hvalue : (address - address % align + align).toNat =
            address.toNat - address.toNat % align.toNat + align.toNat := by
          rw [UInt64.toNat_add, UInt64.toNat_sub_of_le _ _ (UInt64.le_iff_toNat_le.mpr
            (by rw [UInt64.toNat_mod]; exact hle)), UInt64.toNat_mod]
          exact Nat.mod_eq_of_lt hfits
        have hne : address.toNat % align.toNat ≠ 0 := by
          intro hzero
          apply hmod
          apply UInt64.toNat_inj.mp
          rw [UInt64.toNat_mod, hzero]
          rfl
        rw [hvalue]
        refine ⟨?_, by omega, by omega⟩
        rw [Nat.add_mod_right]
        exact Nat.sub_mod_eq_zero_of_mod_eq (Nat.mod_mod _ _).symm
      · cases h
  · cases h

theorem toNat_sizeToPages (size : UInt64) :
    (sizeToPages size).toNat = (size.toNat + 0xFFF) / 0x1000 := by
  have hlt := size.toNat_lt_size
  have hsize : UInt64.size = 2 ^ 64 := rfl
  have hdiv : (size / pageSize).toNat = size.toNat / 0x1000 := UInt64.toNat_div ..
  have hmod : (size % pageSize).toNat = size.toNat % 0x1000 := UInt64.toNat_mod ..
  rw [sizeToPages, UInt64.toNat_add, hdiv]
  split
  · rename_i hzero
    rw [hzero, UInt64.toNat_zero] at hmod
    rw [UInt64.toNat_zero]
    omega
  · rename_i hzero
    have hne : (size % pageSize).toNat ≠ 0 := fun h => hzero (UInt64.toNat_inj.mp h)
    rw [show (1 : UInt64).toNat = 1 from rfl]
    omega

theorem toNat_pagesToSize (pages : UInt64) :
    (pagesToSize pages).toNat = pages.toNat * 0x1000 % UInt64.size := by
  rw [pagesToSize, UInt64.toNat_shiftLeft, show pageShift.toNat % 64 = 12 from rfl,
    Nat.shiftLeft_eq]

theorem pagesToSize_sizeToPages {size : UInt64} (h : size.toNat + 0xFFF < UInt64.size) :
    size.toNat ≤ (pagesToSize (sizeToPages size)).toNat ∧
      (pagesToSize (sizeToPages size)).toNat < size.toNat + 0x1000 := by
  rw [toNat_pagesToSize, toNat_sizeToPages, Nat.mod_eq_of_lt (by omega)]
  omega

end PlatformInit
